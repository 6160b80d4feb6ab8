namespace ItaniumRtti

/-!
# Windows of byte arrays

* `clip` — a window of a byte array, clipped to it;
* `bytesAt` — the bytes of a window;
* `matchesAt` — whether a pattern stands at an offset;
* `searchEnd` — where a search window ends;
* `indexOf?` — the first offset of a window at which a pattern stands;
* `occurrences` — every such offset, found by searching again after each hit.
-/

/-- The `count` bytes of `data` from `offset` on, or as many of them as there are. -/
def clip (data : ByteArray) (offset count : Nat) : ByteArray :=
  data.extract (min offset data.size) (min (offset + count) data.size)

/-- The bytes of a window of `data`, clipped to it. -/
def bytesAt (data : ByteArray) (offset count : Nat) : List UInt8 :=
  (clip data offset count).data.toList

/-- Whether the bytes of `pattern` stand in `data` at `offset`. -/
def matchesAt (data : ByteArray) : List UInt8 → Nat → Bool
  | [], _ => true
  | p :: ps, offset =>
    if h : offset < data.size then data[offset] == p && matchesAt data ps (offset + 1) else false

/-- Where a search window with end `stop` ends in `size` bytes: an end past the data is cut to
    it, and a negative one counts from the data's end. -/
def searchEnd (size : Nat) (stop : Int) : Nat :=
  if stop < 0 then (stop + size).toNat else min stop.toNat size

/-- The first of `count` offsets from `offset` on at which `pattern` stands in `data`. -/
def firstMatch? (data : ByteArray) (pattern : List UInt8) : Nat → Nat → Option Nat
  | 0, _ => none
  | count + 1, offset =>
    if matchesAt data pattern offset then some offset
    else firstMatch? data pattern count (offset + 1)

/-- The first offset from `start` on at which `pattern` stands in `data` and ends at or before
    `stop`. -/
def indexOf? (data : ByteArray) (pattern : List UInt8) (start stop : Nat) : Option Nat :=
  firstMatch? data pattern (stop + 1 - pattern.length - start) start

/-- The first match is one of the offsets tried. -/
theorem firstMatch?_bounds {data : ByteArray} {pattern : List UInt8} {count offset hit : Nat}
    (found : firstMatch? data pattern count offset = some hit) :
    offset ≤ hit ∧ hit < offset + count := by
  induction count generalizing offset with
  | zero => cases found
  | succ count ih =>
    rw [firstMatch?] at found
    split at found
    · cases found
      omega
    · have bounds := ih found
      omega

/-- Every offset from `start` on at which `pattern` stands in `data` and ends at or before `stop`.
    After each hit the search starts again at the next offset, so hits may overlap. -/
def occurrences (data : ByteArray) (pattern : List UInt8) (start stop : Nat) : List Nat :=
  match found : indexOf? data pattern start stop with
  | none => []
  | some hit => hit :: occurrences data pattern (hit + 1) stop
termination_by stop + 1 - start
decreasing_by
  have bounds := firstMatch?_bounds found
  omega

theorem bytesAt_eq (data : ByteArray) (offset count : Nat) :
    bytesAt data offset count = (data.data.toList.drop offset).take count := by
  have size : data.size = data.data.toList.length := Array.length_toList.symm
  rw [bytesAt, clip, ByteArray.data_extract, Array.toList_extract, List.extract_eq_take_drop, size]
  generalize data.data.toList = bytes
  by_cases h : offset ≤ bytes.length
  · rw [Nat.min_eq_left h]
    apply List.ext_getElem?
    intro i
    grind
  · have past : bytes.drop offset = [] := List.drop_of_length_le (by omega)
    rw [Nat.min_eq_right (by omega), Nat.min_eq_right (by omega), Nat.sub_self, past,
      List.take_zero, List.take_nil]

theorem length_bytesAt (data : ByteArray) (offset count : Nat) :
    (bytesAt data offset count).length = min count (data.size - offset) := by
  rw [bytesAt_eq, List.length_take, List.length_drop, Array.length_toList]
  rfl

end ItaniumRtti
