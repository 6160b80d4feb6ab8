import ItaniumRtti.Bytes.Slice
import Mathlib.Data.List.Basic

namespace ItaniumRtti

/-!
# Hits of a pattern in a window

A search for all hits is a loop: it takes the first hit of a window and starts again at the next
offset, with the same end.  It finds the offsets that a comparison at every offset of the window
would find, although it never looks back.

* `matchesAt_iff` — a pattern stands where its bytes can be read;
* `indexOf?_eq_some_iff`, `indexOf?_eq_none_iff` — the first hit of a window;
* `occurrences_eq_filter` — the loop finds every offset at which the pattern stands;
* `mem_occurrences`, `pairwise_occurrences` — where these are, and in which order.
-/

/-- A pattern stands at an offset if its bytes can be read there. -/
theorem matchesAt_iff (data : ByteArray) (pattern : List UInt8) (offset : Nat) :
    matchesAt data pattern offset = true ↔ bytesAt data offset pattern.length = pattern := by
  rw [bytesAt_eq]
  -- The comparison goes byte by byte and stops at the end of the data, where nothing can be read
  -- either.
  induction pattern generalizing offset with
  | nil => simp only [matchesAt, List.length_nil, List.take_zero]
  | cons p ps ih =>
    rw [matchesAt]
    have size : data.size = data.data.toList.length := Array.length_toList.symm
    split
    · next inside =>
      have first : data.data.toList.drop offset =
          data[offset] :: data.data.toList.drop (offset + 1) :=
        List.drop_eq_getElem_cons (by omega)
      rw [first, List.length_cons, List.take_succ_cons, List.cons.injEq, Bool.and_eq_true,
        beq_iff_eq, ih]
    · next outside =>
      rw [List.drop_of_length_le (by omega), List.take_nil]
      simp only [Bool.false_eq_true, reduceCtorEq]

/-- A single byte stands where it is held. -/
theorem matchesAt_singleton (data : ByteArray) (byte : UInt8) (offset : Nat) :
    matchesAt data [byte] offset = true ↔ data.data[offset]? = some byte := by
  rw [matchesAt]
  split
  · next inside =>
    have here : data.data[offset]? = some data[offset] := Array.getElem?_eq_getElem inside
    rw [here, matchesAt, Bool.and_true, beq_iff_eq, Option.some.injEq]
  · next outside =>
    have none : data.data[offset]? = none := Array.getElem?_eq_none (Nat.le_of_not_lt outside)
    simp [none]

/-! ### The first hit -/

variable {data : ByteArray} {pattern : List UInt8}

/-- The first match is the first of the offsets tried at which the pattern stands. -/
theorem firstMatch?_eq_find? (data : ByteArray) (pattern : List UInt8) (count offset : Nat) :
    firstMatch? data pattern count offset =
      (List.range' offset count).find? (matchesAt data pattern) := by
  induction count generalizing offset with
  | zero => rfl
  | succ count ih =>
    rw [firstMatch?, List.range'_succ, List.find?_cons, ih]
    cases matchesAt data pattern offset <;> rfl

/-- The first hit in a window: the pattern stands there, and nowhere before. -/
theorem indexOf?_eq_some_iff {start stop hit : Nat} :
    indexOf? data pattern start stop = some hit ↔
      matchesAt data pattern hit = true ∧ (start ≤ hit ∧ hit + pattern.length < stop + 1) ∧
        ∀ offset, start ≤ offset → offset < hit → matchesAt data pattern offset = false := by
  rw [indexOf?, firstMatch?_eq_find?, List.find?_range'_eq_some, List.mem_range'_1]
  simp only [Bool.not_eq_true', and_congr_right_iff]
  intro _
  constructor
  · rintro ⟨⟨lower, upper⟩, before⟩
    exact ⟨⟨lower, by omega⟩, before⟩
  · rintro ⟨⟨lower, upper⟩, before⟩
    exact ⟨⟨lower, by omega⟩, before⟩

/-- There is no hit in a window if the pattern stands nowhere in it. -/
theorem indexOf?_eq_none_iff {start stop : Nat} :
    indexOf? data pattern start stop = none ↔
      ∀ offset ∈ List.range' start (stop + 1 - pattern.length - start),
        matchesAt data pattern offset = false := by
  rw [indexOf?, firstMatch?_eq_find?, List.find?_eq_none]
  simp only [Bool.not_eq_true]

/-! ### All hits -/

/-- **Searching again after each hit misses none.**  The hits are all offsets of the window at which
    the pattern stands: between a hit and the next one there is none, and the search goes on one
    offset after a hit, before the pattern there has ended. -/
theorem occurrences_eq_filter (data : ByteArray) (pattern : List UInt8) (start stop : Nat) :
    occurrences data pattern start stop =
      (List.range' start (stop + 1 - pattern.length - start)).filter (matchesAt data pattern) := by
  fun_induction occurrences data pattern start stop with
  | case1 start found =>
    refine (List.filter_eq_nil_iff.mpr fun offset inside => ?_).symm
    rw [indexOf?_eq_none_iff.mp found offset inside]
    exact Bool.false_ne_true
  | case2 start hit found ih =>
    obtain ⟨stands, ⟨lower, upper⟩, before⟩ := indexOf?_eq_some_iff.mp found
    -- the window is what lies before the hit, the hit, and the window of the next search
    have window : List.range' start (stop + 1 - pattern.length - start) =
        List.range' start (hit - start) ++
          hit :: List.range' (hit + 1) (stop + 1 - pattern.length - (hit + 1)) := by
      have count : stop + 1 - pattern.length - start =
          (hit - start) + (stop + 1 - pattern.length - (hit + 1) + 1) := by omega
      rw [count, ← List.range'_append_1, List.range'_succ]
      have next : start + (hit - start) = hit := by omega
      rw [next]
    have nothing : (List.range' start (hit - start)).filter (matchesAt data pattern) = [] := by
      refine List.filter_eq_nil_iff.mpr fun offset inside => ?_
      obtain ⟨first, last⟩ := List.mem_range'_1.mp inside
      rw [before offset first (by omega)]
      exact Bool.false_ne_true
    rw [window, List.filter_append, nothing, List.nil_append, List.filter_cons_of_pos stands, ih]

/-- Where a pattern stands in a window: it starts and ends in the window. -/
theorem mem_occurrences {start stop offset : Nat} :
    offset ∈ occurrences data pattern start stop ↔
      start ≤ offset ∧ offset + pattern.length ≤ stop ∧
        bytesAt data offset pattern.length = pattern := by
  rw [occurrences_eq_filter, List.mem_filter, matchesAt_iff, List.mem_range'_1]
  constructor
  · rintro ⟨⟨lower, upper⟩, stands⟩
    exact ⟨lower, by omega, stands⟩
  · rintro ⟨lower, upper, stands⟩
    exact ⟨⟨lower, by omega⟩, stands⟩

/-- Hits are found in increasing order. -/
theorem pairwise_occurrences (data : ByteArray) (pattern : List UInt8) (start stop : Nat) :
    (occurrences data pattern start stop).Pairwise (· < ·) := by
  rw [occurrences_eq_filter]
  exact (List.pairwise_lt_range' 1).filter _

end ItaniumRtti
