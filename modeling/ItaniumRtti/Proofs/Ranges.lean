import ItaniumRtti.Image.Range
import Mathlib.Data.List.Pairwise

namespace ItaniumRtti

/-!
# What collections of ranges have in common

A range may be empty or end before it starts, and ranges of one collection may overlap.  Whatever
they are, the ranges in common cover the addresses that both collections cover.

* `AddressRange.Covers`, `AddressRange.Apart` — addresses of a range, and ranges that share none;
* `AddressRange.covers_of_meet?` — what two ranges have in common covers the addresses of both;
* `mem_intersectRanges` — the ranges in common are those of two ranges each;
* `pairwise_apart_intersectRanges` — they share no address if those of each collection share none;
* `intersectRanges_exact` — the ranges in common are an intersection of sets, in order.
-/

namespace AddressRange

/-- `address` is one of the range's addresses. -/
def Covers (r : AddressRange) (address : Int) : Prop :=
  r.start ≤ address ∧ address < r.stop

/-- The two ranges share no address. -/
def Apart (r s : AddressRange) : Prop :=
  ∀ address, r.Covers address → ¬ s.Covers address

instance (r : AddressRange) (address : Int) : Decidable (r.Covers address) :=
  inferInstanceAs (Decidable (_ ∧ _))

variable {r s common : AddressRange}

/-- Ranges are apart if what would be left of them ends before it starts. -/
theorem apart_iff : r.Apart s ↔ min r.stop s.stop ≤ max r.start s.start := by
  constructor
  · intro apart
    -- the later of the two starts is the first address that could lie in both
    have start := apart (max r.start s.start)
    simp only [Covers] at start
    omega
  · rintro ends address ⟨_, _⟩ ⟨_, _⟩
    omega

instance (r s : AddressRange) : Decidable (r.Apart s) :=
  decidable_of_iff _ apart_iff.symm

theorem Apart.symm (apart : r.Apart s) : s.Apart r :=
  fun address second first => apart address first second

/-! ### Two ranges -/

/-- Two ranges have in common what lies between the later start and the earlier end. -/
theorem meet?_eq_some_iff : r.meet? s = some common ↔
    common = ⟨max r.start s.start, min r.stop s.stop⟩ ∧ common.start < common.stop := by
  rw [meet?]
  split
  · next left =>
    rw [Option.some.injEq]
    constructor
    · rintro rfl
      exact ⟨rfl, left⟩
    · rintro ⟨rfl, -⟩
      rfl
  · next nothing =>
    constructor
    · intro found
      cases found
    · rintro ⟨rfl, left⟩
      exact absurd left nothing

/-- What two ranges have in common covers the addresses of both. -/
theorem covers_of_meet? (meets : r.meet? s = some common) (address : Int) :
    common.Covers address ↔ r.Covers address ∧ s.Covers address := by
  obtain ⟨rfl, -⟩ := meet?_eq_some_iff.mp meets
  simp only [Covers]
  omega

/-- Ranges that share an address have a range in common. -/
theorem meet?_of_covers {address : Int} (first : r.Covers address) (second : s.Covers address) :
    ∃ common, r.meet? s = some common := by
  obtain ⟨_, _⟩ := first
  obtain ⟨_, _⟩ := second
  exact ⟨_, meet?_eq_some_iff.mpr ⟨rfl, by show max _ _ < min _ _; omega⟩⟩

/-! ### Order -/

/-- Ranges are ordered by their starts and then by their ends. -/
theorem le_iff : r.le s = true ↔ r.start < s.start ∨ r.start = s.start ∧ r.stop ≤ s.stop := by
  simp only [le, Bool.or_eq_true, Bool.and_eq_true, decide_eq_true_eq, beq_iff_eq]

protected theorem le_trans (a b c : AddressRange) (first : a.le b = true) (second : b.le c = true) :
    a.le c = true := by
  rw [le_iff] at first second ⊢
  omega

protected theorem le_total (a b : AddressRange) : (a.le b || b.le a) = true := by
  rw [Bool.or_eq_true, le_iff, le_iff]
  omega

end AddressRange

/-! ### Two collections -/

open AddressRange

variable {ranges limits : List AddressRange}

/-- What two collections have in common is found pair by pair and then sorted. -/
theorem intersectRanges_perm (ranges limits : List AddressRange) :
    (intersectRanges ranges limits).Perm (ranges.flatMap fun r => limits.filterMap r.meet?) :=
  List.mergeSort_perm _ _

/-- So each of the ranges in common comes from a pair. -/
theorem mem_intersectRanges {common : AddressRange} :
    common ∈ intersectRanges ranges limits ↔
      ∃ r ∈ ranges, ∃ s ∈ limits, r.meet? s = some common := by
  simp only [(intersectRanges_perm ranges limits).mem_iff, List.mem_flatMap, List.mem_filterMap]

/-- The ranges in common stand in order. -/
theorem pairwise_le_intersectRanges (ranges limits : List AddressRange) :
    (intersectRanges ranges limits).Pairwise fun r s => r.le s = true :=
  List.pairwise_mergeSort AddressRange.le_trans AddressRange.le_total _

/-- They cover what both collections cover. -/
theorem covers_intersectRanges (ranges limits : List AddressRange) (address : Int) :
    (∃ common ∈ intersectRanges ranges limits, common.Covers address) ↔
      (∃ r ∈ ranges, r.Covers address) ∧ ∃ s ∈ limits, s.Covers address := by
  constructor
  · rintro ⟨common, member, covers⟩
    obtain ⟨r, first, s, second, meets⟩ := mem_intersectRanges.mp member
    obtain ⟨inFirst, inSecond⟩ := (covers_of_meet? meets address).mp covers
    exact ⟨⟨r, first, inFirst⟩, s, second, inSecond⟩
  · rintro ⟨⟨r, first, inFirst⟩, s, second, inSecond⟩
    obtain ⟨common, meets⟩ := meet?_of_covers inFirst inSecond
    exact ⟨common, mem_intersectRanges.mpr ⟨r, first, s, second, meets⟩,
      (covers_of_meet? meets address).mpr ⟨inFirst, inSecond⟩⟩

/-- If the ranges of each collection share no address, neither do the ranges in common. -/
theorem pairwise_apart_intersectRanges (first : ranges.Pairwise Apart)
    (second : limits.Pairwise Apart) : (intersectRanges ranges limits).Pairwise Apart := by
  rw [(intersectRanges_perm ranges limits).pairwise_iff Apart.symm, List.pairwise_flatMap]
  constructor
  · -- one range cut by two of the limits
    intro r _
    refine second.filterMap _ fun s s' apart common meets common' meets' => ?_
    intro address covers covers'
    exact apart address ((covers_of_meet? meets address).mp covers).2
      ((covers_of_meet? meets' address).mp covers').2
  · -- two ranges, each cut by any of the limits
    refine first.imp fun {r r'} apart common member common' member' => ?_
    obtain ⟨s, -, meets⟩ := List.mem_filterMap.mp member
    obtain ⟨s', -, meets'⟩ := List.mem_filterMap.mp member'
    intro address covers covers'
    exact apart address ((covers_of_meet? meets address).mp covers).1
      ((covers_of_meet? meets' address).mp covers').1

/-- **Ranges in common are an intersection of sets.**  They cover the addresses that both
    collections cover.  None of them is empty, they stand in order of their starts and then of their
    ends, and they share no address if the ranges of each collection share none. -/
theorem intersectRanges_exact (ranges limits : List AddressRange) :
    (∀ address, (∃ common ∈ intersectRanges ranges limits, common.Covers address) ↔
      (∃ r ∈ ranges, r.Covers address) ∧ ∃ s ∈ limits, s.Covers address) ∧
    (∀ common ∈ intersectRanges ranges limits, common.start < common.stop) ∧
    (intersectRanges ranges limits).Pairwise (fun r s =>
      r.start < s.start ∨ r.start = s.start ∧ r.stop ≤ s.stop) ∧
    (ranges.Pairwise Apart → limits.Pairwise Apart →
      (intersectRanges ranges limits).Pairwise Apart) := by
  refine ⟨covers_intersectRanges ranges limits, fun common member => ?_, ?_,
    pairwise_apart_intersectRanges⟩
  · obtain ⟨r, -, s, -, meets⟩ := mem_intersectRanges.mp member
    exact (meet?_eq_some_iff.mp meets).2
  · exact (pairwise_le_intersectRanges ranges limits).imp le_iff.mp

/-- Two ranges beside an empty one, cut by a range over both and a reversed one. -/
theorem intersectRanges_exact_sample :
    [⟨0, 10⟩, ⟨5, 5⟩, ⟨20, 30⟩].Pairwise Apart ∧ [⟨8, 25⟩, ⟨24, 20⟩].Pairwise Apart ∧
    (intersectRanges [⟨0, 10⟩, ⟨5, 5⟩, ⟨20, 30⟩] [⟨8, 25⟩, ⟨24, 20⟩]).Pairwise Apart ∧
    ∃ common ∈ intersectRanges [⟨0, 10⟩, ⟨5, 5⟩, ⟨20, 30⟩] [⟨8, 25⟩, ⟨24, 20⟩],
      common.Covers 24 := by
  have first : [⟨0, 10⟩, ⟨5, 5⟩, ⟨20, 30⟩].Pairwise Apart := by decide
  have second : [⟨8, 25⟩, ⟨24, 20⟩].Pairwise Apart := by decide
  obtain ⟨covers, -, -, apart⟩ :=
    intersectRanges_exact [⟨0, 10⟩, ⟨5, 5⟩, ⟨20, 30⟩] [⟨8, 25⟩, ⟨24, 20⟩]
  exact ⟨first, second, apart first second, (covers 24).mpr (by decide)⟩

end ItaniumRtti
