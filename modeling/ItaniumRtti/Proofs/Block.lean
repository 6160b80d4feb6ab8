import ItaniumRtti.Image.Basic

namespace ItaniumRtti

/-!
# Blocks that do not overlap

* `Block.Covers` — an address lies in a block;
* `Image.Tidy` — the blocks of an image have positive size and do not overlap;
* `Image.blockAt?_eq_some_iff` — in a tidy image the block at an address is the one that covers it.
-/

/-- `address` is one of the block's addresses. -/
def Block.Covers (b : Block) (address : Int) : Prop :=
  b.start ≤ address ∧ address < b.stop

instance (b : Block) (address : Int) : Decidable (b.Covers address) :=
  inferInstanceAs (Decidable (_ ∧ _))

/-- A stretch lies in a block if both of its ends do. -/
theorem Block.contains_iff (b : Block) (address length : Int) :
    b.contains address length = true ↔ b.start ≤ address ∧ address + length ≤ b.stop := by
  simp only [Block.contains, Bool.and_eq_true, decide_eq_true_eq]

/-- A single byte lies in the block that covers its address. -/
theorem Block.contains_one_iff (b : Block) (address : Int) :
    b.contains address 1 = true ↔ b.Covers address := by
  rw [Block.contains_iff, Block.Covers]
  omega

/-- Nothing of positive length lies in a block from its end on. -/
theorem Block.not_contains_stop (b : Block) {length : Int} (positive : 0 < length) :
    b.contains b.stop length = false := by
  rw [Bool.eq_false_iff, Ne, Block.contains_iff]
  omega

namespace Image

/-- The blocks have positive size and no two of them share an address. -/
structure Tidy (img : Image) : Prop where
  /-- No block is empty. -/
  positive : ∀ b ∈ img.blocks, 0 < b.size
  /-- Of two blocks one ends before the other starts. -/
  disjoint : img.blocks.Pairwise fun a b => a.stop ≤ b.start ∨ b.stop ≤ a.start

instance (img : Image) : Decidable img.Tidy :=
  decidable_of_iff ((∀ b ∈ img.blocks, 0 < b.size) ∧
      img.blocks.Pairwise fun a b => a.stop ≤ b.start ∨ b.stop ≤ a.start)
    ⟨fun h => ⟨h.1, h.2⟩, fun h => ⟨h.positive, h.disjoint⟩⟩

variable {img : Image}

/-- Since blocks stand in address order, each ends before the next one starts. -/
theorem Tidy.separated (tidy : img.Tidy) :
    img.blocks.Pairwise fun a b => a.stop ≤ b.start := by
  have both := (img.ordered.and tidy.disjoint).imp_of_mem (S := fun a b => a.stop ≤ b.start)
  apply both
  intro a b _ hb ⟨order, apart⟩
  have positive := tidy.positive b hb
  rcases apart with before | after
  · exact before
  · rw [Block.stop] at after
    omega

/-- What `blockAt?` finds is a block of the image that covers the address. -/
theorem mem_of_blockAt? {address : Int} {b : Block} (found : img.blockAt? address = some b) :
    b ∈ img.blocks ∧ b.Covers address := by
  obtain ⟨last, covers⟩ := Option.filter_eq_some_iff.mp found
  have member := List.mem_of_getLast? last
  exact ⟨(List.mem_filter.mp member).1, (b.contains_one_iff address).mp covers⟩

/-- **The block at an address is the one that covers it**, since no two blocks share an address. -/
theorem blockAt?_eq_some_iff (tidy : img.Tidy) {address : Int} {b : Block} :
    img.blockAt? address = some b ↔ b ∈ img.blocks ∧ b.Covers address := by
  refine ⟨mem_of_blockAt?, fun ⟨member, covers⟩ => ?_⟩
  -- `b` is among the blocks that start early enough; a later one of them would start inside `b`.
  have early : b ∈ img.blocks.filter (fun c => decide (c.start ≤ address)) :=
    List.mem_filter.mpr ⟨member, decide_eq_true covers.1⟩
  have separated := tidy.separated.filter (fun c => decide (c.start ≤ address))
  rw [blockAt?, Option.filter_eq_some_iff, b.contains_one_iff]
  refine ⟨?_, covers⟩
  cases found : (img.blocks.filter (fun c => decide (c.start ≤ address))).getLast? with
  | none =>
    rw [List.getLast?_eq_none_iff.mp found] at early
    exact absurd early List.not_mem_nil
  | some last =>
    obtain ⟨front, split⟩ := List.getLast?_eq_some_iff.mp found
    have start : last.start ≤ address :=
      of_decide_eq_true (List.mem_filter.mp (List.mem_of_getLast? found)).2
    rw [split, List.mem_append, List.mem_singleton] at early
    rcases early with inFront | rfl
    · -- A later block starts at or before the address and after `b` ends: no room for the address.
      rw [split, List.pairwise_append] at separated
      have apart := separated.2.2 b inFront last (List.mem_singleton.mpr rfl)
      have stop := covers.2
      omega
    · rfl

/-- A block is found at its own start. -/
theorem blockAt?_start (tidy : img.Tidy) {b : Block} (member : b ∈ img.blocks) :
    img.blockAt? b.start = some b := by
  have positive := tidy.positive b member
  rw [blockAt?_eq_some_iff tidy, Block.Covers, Block.stop]
  exact ⟨member, by omega, by omega⟩

end Image

end ItaniumRtti
