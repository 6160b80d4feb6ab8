import ItaniumRtti.Proofs.Ranges
import ItaniumRtti.Proofs.Search
import ItaniumRtti.TypeInfo.Name
import Mathlib.Data.List.Nodup

namespace ItaniumRtti

/-!
# Where a name stands in the data

A lookup searches the blocks of data, cut to a range if one is given, for the bytes of the name and
a NUL.  It keeps the places that a string can begin at: the start of a cut block, and whatever
follows a NUL.

* `Image.IsNameHit` — what such a place is, in terms of reads;
* `Image.nameHits` — the places that the search finds;
* `Image.mem_nameHits` — they are the same;
* `Image.nameHits_eq_singleton_iff` — the search finds one place exactly if there is one.
-/

/-! ### Ranges that are searched -/

/-- The addresses of the block that lie in the range, if one is given. -/
def Block.rangeWithin (b : Block) : Option AddressRange → AddressRange
  | none => ⟨b.start, b.stop⟩
  | some range => ⟨max b.start range.start, min b.stop range.stop⟩

theorem Block.start_le_rangeWithin (b : Block) (within : Option AddressRange) :
    b.start ≤ (b.rangeWithin within).start := by
  cases within with
  | none => exact le_rfl
  | some range => exact le_max_left _ _

theorem Block.rangeWithin_le_stop (b : Block) (within : Option AddressRange) :
    (b.rangeWithin within).stop ≤ b.stop := by
  cases within with
  | none => exact le_rfl
  | some range => exact min_le_left _ _

namespace Image

variable {img : Image} {within : Option AddressRange}

/-- The ranges that a lookup searches. -/
def rangesWithin (img : Image) : Option AddressRange → List AddressRange
  | none => img.dataRanges
  | some range => intersectRanges img.dataRanges [range]

/-- The ranges that are searched are what is left of the blocks of data, where anything is left. -/
theorem mem_rangesWithin (tidy : img.Tidy) {range : AddressRange} :
    range ∈ img.rangesWithin within ↔
      ∃ b ∈ img.blocks, b.initialized = true ∧ b.executable = false ∧
        b.rangeWithin within = range ∧ range.start < range.stop := by
  cases within with
  | none =>
    simp only [rangesWithin, dataRanges, List.mem_map, List.mem_filter, Bool.and_eq_true,
      Bool.not_eq_true', Block.rangeWithin, and_assoc]
    refine exists_congr fun b => and_congr_right fun member => and_congr_right fun _ =>
      and_congr_right fun _ => ?_
    refine (and_iff_left_of_imp ?_).symm
    rintro rfl
    -- a block is never empty
    have positive := tidy.positive b member
    show b.start < b.stop
    rw [Block.stop]
    omega
  | some limit =>
    simp only [rangesWithin, mem_intersectRanges, List.mem_singleton, exists_eq_left, dataRanges,
      List.mem_map, List.mem_filter, Bool.and_eq_true, Bool.not_eq_true',
      AddressRange.meet?_eq_some_iff, Block.rangeWithin]
    constructor
    · rintro ⟨_, ⟨b, ⟨member, initialized, data⟩, rfl⟩, rfl, left⟩
      exact ⟨b, member, initialized, data, rfl, left⟩
    · rintro ⟨b, member, initialized, data, rfl, left⟩
      exact ⟨_, ⟨b, ⟨member, initialized, data⟩, rfl⟩, rfl, left⟩

/-- No two of the ranges that are searched overlap. -/
theorem pairwise_rangesWithin (tidy : img.Tidy) (within : Option AddressRange) :
    (img.rangesWithin within).Pairwise AddressRange.Apart := by
  have blocks : img.dataRanges.Pairwise AddressRange.Apart := by
    rw [dataRanges, List.pairwise_map]
    refine (tidy.disjoint.filter _).imp fun {b c} apart => ?_
    rw [AddressRange.apart_iff]
    show min b.stop c.stop ≤ max b.start c.start
    omega
  cases within with
  | none => exact blocks
  | some limit => exact pairwise_apart_intersectRanges blocks (List.pairwise_singleton _ _)

/-! ### Hits -/

/-- `name` and a NUL stand at `address` in the range, at its start or after a NUL. -/
structure IsNameHitIn (img : Image) (range : AddressRange) (name : String) (address : Int) :
    Prop where
  /-- The name begins in the range. -/
  lower : range.start ≤ address
  /-- Its NUL lies in the range. -/
  upper : address + (encodeUtf8 name).length + 1 ≤ range.stop
  /-- The bytes of the name and the NUL are read there. -/
  stands : img.readBytes? address ((encodeUtf8 name).length + 1) = some (encodeUtf8 name ++ [0])
  /-- Nothing in the range belongs to the same string before it. -/
  begins : address = range.start ∨ img.readBytes? (address - 1) 1 = some [0]

theorem IsNameHitIn.covers {range : AddressRange} {name : String} {address : Int}
    (hit : img.IsNameHitIn range name address) : range.Covers address := by
  have upper := hit.upper
  exact ⟨hit.lower, by omega⟩

/-- `name` stands at `address` as a string of its own, in a block of data cut to `within`. -/
def IsNameHit (img : Image) (within : Option AddressRange) (name : String) (address : Int) : Prop :=
  ∃ b ∈ img.blocks, b.initialized = true ∧ b.executable = false ∧
    img.IsNameHitIn (b.rangeWithin within) name address

/-- The places at which a lookup finds the name. -/
def nameHits (img : Image) (within : Option AddressRange) (name : String) : List Int :=
  (img.rangesWithin within).flatMap (img.wholeHitsIn (encodeUtf8 name ++ [0]))

/-- The whole hits in a part of a block are the places where the name stands on its own. -/
theorem mem_wholeHitsIn (tidy : img.Tidy) {b : Block} (member : b ∈ img.blocks)
    (initialized : b.initialized = true)
    (left : (b.rangeWithin within).start < (b.rangeWithin within).stop) {name : String}
    {address : Int} :
    address ∈ img.wholeHitsIn (encodeUtf8 name ++ [0]) (b.rangeWithin within) ↔
      img.IsNameHitIn (b.rangeWithin within) name address := by
  have start := b.start_le_rangeWithin within
  have stop := b.rangeWithin_le_stop within
  -- Only the two bounds are used of the range.
  generalize b.rangeWithin within = range at left start stop
  have found : img.blockAt? range.start = some b :=
    (blockAt?_eq_some_iff tidy).mpr ⟨member, start, by omega⟩
  have length : (encodeUtf8 name ++ [0]).length = (encodeUtf8 name).length + 1 := by simp
  have filled : encodeUtf8 name ++ [0] ≠ [] := by simp
  rw [wholeHitsIn, List.mem_filter, mem_hitsIn found initialized left.le, min_eq_left stop,
    Bool.or_eq_true, beq_iff_eq, beq_iff_eq, length]
  constructor
  · rintro ⟨⟨lower, upper, fits, stands⟩, begins⟩
    have here : img.blockAt? address = some b :=
      (blockAt?_eq_some_iff tidy).mpr ⟨member, by omega, by omega⟩
    have read := readBytes?_eq_some_iff here initialized filled
    rw [length] at read
    exact ⟨lower, by omega, read.mpr ⟨by omega, fits, stands⟩, begins⟩
  · rintro ⟨lower, upper, stands, begins⟩
    have here : img.blockAt? address = some b :=
      (blockAt?_eq_some_iff tidy).mpr ⟨member, by omega, by omega⟩
    have read := readBytes?_eq_some_iff here initialized filled
    rw [length] at read
    obtain ⟨-, fits, bytes⟩ := read.mp stands
    exact ⟨⟨lower, by omega, fits, bytes⟩, begins⟩

/-- **Lookups find a name where it stands.** -/
theorem mem_nameHits (tidy : img.Tidy) {name : String} {address : Int} :
    address ∈ img.nameHits within name ↔ img.IsNameHit within name address := by
  rw [nameHits, List.mem_flatMap]
  constructor
  · rintro ⟨range, searched, hit⟩
    obtain ⟨b, member, initialized, data, rfl, left⟩ := (mem_rangesWithin tidy).mp searched
    exact ⟨b, member, initialized, data, (mem_wholeHitsIn tidy member initialized left).mp hit⟩
  · rintro ⟨b, member, initialized, data, hit⟩
    have left : (b.rangeWithin within).start < (b.rangeWithin within).stop := by
      have lower := hit.lower
      have upper := hit.upper
      omega
    exact ⟨_, (mem_rangesWithin tidy).mpr ⟨b, member, initialized, data, rfl, left⟩,
      (mem_wholeHitsIn tidy member initialized left).mpr hit⟩

/-- No place is found twice. -/
theorem nodup_nameHits (tidy : img.Tidy) (within : Option AddressRange) (name : String) :
    (img.nameHits within name).Nodup := by
  refine List.nodup_flatMap.mpr ⟨fun range _ => ?_, ?_⟩
  · exact ((img.pairwise_hitsIn _ range).imp ne_of_lt).filter _
  refine (pairwise_rangesWithin tidy within).imp_of_mem fun {r s} searched searched' apart => ?_
  obtain ⟨b, member, initialized, -, rfl, left⟩ := (mem_rangesWithin tidy).mp searched
  obtain ⟨c, member', initialized', -, rfl, left'⟩ := (mem_rangesWithin tidy).mp searched'
  intro address hit hit'
  have first := (mem_wholeHitsIn tidy member initialized left).mp hit
  have second := (mem_wholeHitsIn tidy member' initialized' left').mp hit'
  exact apart address first.covers second.covers

/-- The search finds one place exactly if the name stands there and nowhere else. -/
theorem nameHits_eq_singleton_iff (tidy : img.Tidy) {name : String} {hit : Int} :
    img.nameHits within name = [hit] ↔
      img.IsNameHit within name hit ∧ ∀ other, img.IsNameHit within name other → other = hit := by
  simp only [← mem_nameHits tidy]
  constructor
  · intro single
    rw [single]
    exact ⟨List.mem_singleton_self hit, fun other => List.mem_singleton.mp⟩
  · rintro ⟨member, only⟩
    -- No place is listed twice, so another list would have none or one that differs.
    by_contra several
    rcases ((nodup_nameHits tidy within name).ne_singleton_iff hit).mp several with
      none | ⟨other, member', differs⟩
    · rw [none] at member
      exact List.not_mem_nil member
    · exact differs (only other member')

end Image

end ItaniumRtti
