import ItaniumRtti.Image.Read

namespace ItaniumRtti

/-!
# Searching an image

* `Image.hitsIn` — where a pattern stands in one range;
* `Image.findBytes` — where a pattern stands in several ranges;
* `Image.needle` — the bytes of a pointer to a target;
* `Image.findReferences` — the data words that point at a target.

A search is given whether the user has asked to stop, and checks it once a range and at the end.
-/

namespace Image

variable (img : Image)

/-- The addresses at which `pattern` stands in `range`, as far as the block and the contents
    reach that the range starts in. -/
def hitsIn (pattern : List UInt8) (range : AddressRange) : List Int :=
  match img.blockAt? range.start with
  | none => []
  | some b =>
    if !b.initialized then []
    else
      let stop := min range.stop b.stop
      (occurrences b.data pattern (range.start - b.start).toNat
        (searchEnd b.data.size (stop - b.start))).map fun offset : Nat => b.start + offset

/-- The addresses at which `pattern` stands in `ranges`, range by range.  The empty pattern stands
    nowhere. -/
def findBytes (cancelled : Bool) (pattern : List UInt8) (ranges : List AddressRange) :
    Except Fault (List Int) :=
  if pattern.isEmpty then .ok []
  else if cancelled && !ranges.isEmpty then .error .cancelled
  else .ok (ranges.flatMap (img.hitsIn pattern))

/-- The bytes of a pointer to `target`. -/
def needle (target : Nat) : Except Fault (List UInt8) :=
  match img.order.bytes? img.width.bytes target with
  | none => .error .byteOrder
  | some bytes => if img.width.span ≤ target then .error .targetRange else .ok bytes

/-- Whether `r` leaves a pointer to `target` in the word at `address`, outside the code. -/
def relocatesTo (target address : Int) (r : Relocation) : Bool :=
  (img.blockAt? address).any (!·.executable) && img.relocated? r == some target

/-- The data words at multiples of `alignment` that point at `target`, in increasing order.
    A relocated word counts by its relocation, whatever bytes are stored in it. -/
def findReferences (cancelled : Bool) (target : Int) (alignment : Int) :
    Except Fault (List Int) := do
  let pattern ← if 0 ≤ target then img.needle target.toNat else .ok []
  let hits ← img.findBytes cancelled pattern img.dataRanges
  if alignment = 0 && !(hits.isEmpty && img.relocations.isEmpty) then
    throw .zeroAlignment
  let stored := hits.filter fun a => a % alignment == 0 && (img.relocationAt? a).isNone
  let relocated := (img.relocationList.filter fun (a, r) =>
    a % alignment == 0 && img.relocatesTo target a r).map (·.1)
  if cancelled then
    throw .cancelled
  return addressSet (stored ++ relocated)

end Image

end ItaniumRtti
