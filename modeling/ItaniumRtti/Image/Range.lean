import ItaniumRtti.Image.Basic

namespace ItaniumRtti

/-!
# Ranges of addresses

* `AddressRange.meet?` — what two ranges have in common;
* `AddressRange.le` — by start, then by end;
* `intersectRanges` — what two collections of ranges have in common.
-/

namespace AddressRange

/-- The addresses of both ranges, if there is one. -/
def meet? (a b : AddressRange) : Option AddressRange :=
  let start := max a.start b.start
  let stop := min a.stop b.stop
  if start < stop then some ⟨start, stop⟩ else none

/-- The order by start, then by end. -/
def le (a b : AddressRange) : Bool :=
  a.start < b.start || (a.start == b.start && a.stop ≤ b.stop)

end AddressRange

/-- The ranges that the two collections have in common, in order. -/
def intersectRanges (ranges limits : List AddressRange) : List AddressRange :=
  (ranges.flatMap fun r => limits.filterMap r.meet?).mergeSort AddressRange.le

end ItaniumRtti
