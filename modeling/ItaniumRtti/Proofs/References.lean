import ItaniumRtti.Proofs.Reachable

namespace ItaniumRtti

/-!
# Reference search is a scan of all words

A reference search looks for the bytes of a pointer and then goes through the relocations.  It finds
the same words as the plain way, which resolves the word at every address of the data.

* `Image.wordsTo` — the plain way;
* `Image.mem_wordsTo` — the words that it finds;
* `Image.Tidy.pairwise_places`, `Image.pairwise_wordsTo` — it finds them in increasing order;
* `Image.findReferences_exact` — a reference search finds the same words in the same order.
-/

/-! ### Addresses of a block -/

/-- The places of a block are the addresses that it covers. -/
theorem Block.mem_places_iff {b : Block} {address : Int} :
    address ∈ b.places ↔ b.Covers address := by
  refine ⟨fun member => ?_, mem_places⟩
  unfold places at member
  obtain ⟨n, small, rfl⟩ := List.mem_map.mp member
  rw [List.mem_range] at small
  simp only [Covers, stop, Int.ofNat_eq_natCast]
  omega

/-- They are met in increasing order. -/
theorem Block.pairwise_places (b : Block) : b.places.Pairwise (· < ·) := by
  unfold places
  rw [List.pairwise_map]
  refine List.pairwise_lt_range.imp fun {m n} less => ?_
  simp only [Int.ofNat_eq_natCast]
  omega

namespace Image

/-- The addresses outside the code that are multiples of `alignment` and whose word resolves to
    `target`, found by trying them all.  In a block without contents only relocated words count. -/
def wordsTo (img : Image) (target alignment : Int) : List Int :=
  (img.blocks.filter fun b => !b.executable).flatMap fun b => b.places.filter fun a =>
    decide (alignment ∣ a) && (b.initialized || (img.relocationAt? a).isSome) &&
      (img.resolve a).toOption == some (some target)

variable {img : Image} {target alignment : Int}

/-- The plain way finds the aligned words outside the code that resolve to the target. -/
theorem mem_wordsTo {address : Int} :
    address ∈ img.wordsTo target alignment ↔
      alignment ∣ address ∧ img.resolve address = .ok (some target) ∧ img.DataWord address := by
  simp only [wordsTo, DataWord, List.mem_flatMap, List.mem_filter, Block.mem_places_iff,
    Bool.and_eq_true, decide_eq_true_eq, Bool.or_eq_true, beq_iff_eq, toOption_eq_some_iff,
    Bool.not_eq_true']
  constructor
  · rintro ⟨b, ⟨member, data⟩, covers, ⟨multiple, present⟩, resolved⟩
    exact ⟨multiple, resolved, b, member, covers, data, present⟩
  · rintro ⟨multiple, resolved, b, member, covers, data, present⟩
    exact ⟨b, ⟨member, data⟩, covers, ⟨multiple, present⟩, resolved⟩

/-- Since blocks do not overlap, going through their addresses in order gives increasing addresses,
    whichever of them are kept. -/
theorem Tidy.pairwise_places (tidy : img.Tidy) (searched : Block → Bool)
    (kept : Block → Int → Bool) :
    ((img.blocks.filter searched).flatMap fun b => b.places.filter (kept b)).Pairwise (· < ·) := by
  rw [List.pairwise_flatMap]
  constructor
  · intro b _
    exact b.pairwise_places.filter _
  · refine (tidy.separated.filter _).imp fun {first second} apart a here c there => ?_
    have before := Block.mem_places_iff.mp (List.mem_of_mem_filter here)
    have after := Block.mem_places_iff.mp (List.mem_of_mem_filter there)
    exact lt_of_lt_of_le before.2 (le_trans apart after.1)

/-- It meets them in increasing order. -/
theorem pairwise_wordsTo (tidy : img.Tidy) (target alignment : Int) :
    (img.wordsTo target alignment).Pairwise (· < ·) :=
  tidy.pairwise_places _ _

/-- A pointer of `n` bytes has `8 n` bits. -/
theorem span_eq_two_pow (width : PointerWidth) : width.span = Nat.pow 2 (8 * width.bytes) :=
  (Nat.pow_mul 2 8 width.bytes).symm

/-- **Reference search agrees with pointer reads.**  For a target below the number of pointer
    values, negative ones included, and a positive alignment, the search finds in increasing order
    exactly the multiples of the alignment outside the code whose word resolves to the target, and
    which carry a relocation or lie in a block with contents. -/
theorem findReferences_exact (img : Image) (tidy : img.Tidy) (known : img.order.Known)
    (target alignment : Int) (fits : target < Nat.pow 2 (8 * img.width.bytes))
    (positive : 0 < alignment) :
    img.findReferences false target alignment = .ok (img.wordsTo target alignment) ∧
    (img.wordsTo target alignment).Pairwise (· < ·) ∧
    ∀ address, address ∈ img.wordsTo target alignment ↔
      alignment ∣ address ∧ img.resolve address = .ok (some target) ∧
      ∃ b ∈ img.blocks, b.Covers address ∧ b.executable = false ∧
        (b.initialized = true ∨ (img.relocationAt? address).isSome = true) := by
  have small : target < img.width.span := by
    rw [span_eq_two_pow]
    exact fits
  obtain ⟨found, search, sorted, members⟩ :=
    findReferences_spec tidy known small (ne_of_gt positive)
  -- both lists are increasing, so it is enough that they have the same members
  have same : found = img.wordsTo target alignment := by
    refine sorted.eq_of_mem_iff (pairwise_wordsTo tidy target alignment) fun address => ?_
    rw [members, mem_wordsTo, Int.dvd_iff_emod_eq_zero]
  refine ⟨?_, pairwise_wordsTo tidy target alignment, fun address => mem_wordsTo⟩
  rw [search, same]

end Image

/-- Four words of which three hold an address, in a block that is longer than its contents. -/
def Block.sampleWords : Block where
  name := ".data"
  start := 0x1000
  data := ⟨(([0x2000, 0x2000, 0, 0x2000] : List Nat).flatMap (littleBytes 4)).toArray⟩
  size := 24

/-- The loader overwrites the second of the words, and fills in one of a block without contents. -/
def Image.sampleWords : Image where
  width := .narrow
  order := .little
  arch := "x86"
  abi := none
  blocks := [.sampleWords, { name := ".bss", start := 0x2000, size := 8 }]
  symbols := []
  relocations := indexRelocations [(0x1004, { addend := 0x3000 }), (0x2004, { addend := 0x2000 })]
  ordered := by decide

namespace Image

/-- The overwritten word is not a reference, and the one without contents is. -/
theorem findReferences_exact_sampleWords : sampleWords.Tidy ∧
    sampleWords.findReferences false 0x2000 4 = .ok [0x1000, 0x100c, 0x2004] := by
  have tidy : sampleWords.Tidy := by decide
  refine ⟨tidy, ?_⟩
  rw [(findReferences_exact sampleWords tidy (by decide) 0x2000 4 (by decide) (by decide)).1]
  decide +kernel

end Image

end ItaniumRtti
