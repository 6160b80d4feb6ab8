import ItaniumRtti.Proofs.References

namespace ItaniumRtti

/-!
# Byte search is a scan of all addresses

A search for bytes looks for the first hit, starts again one byte after it and so on.  It goes over
the contents of the block that a range starts in, from the range's start to wherever the range, the
block or the contents end first.  It finds the same addresses as the plain way, which compares the
bytes at every address of the block.

* `Block.Stands` — a pattern stands at an address, byte by byte;
* `bytesAt_eq_iff` — so it can be read there;
* `Image.scanFor` — the plain way;
* `Image.hitsIn_eq_scanFor` — a search of one range finds the same addresses;
* `Image.findBytes_exact` — so does a search of several ranges, one after the other.
-/

/-! ### Where a pattern stands -/

/-- The bytes of `pattern` stand at `address` in the block, and the range holds them all. -/
structure Block.Stands (b : Block) (pattern : List UInt8) (range : AddressRange) (address : Int) :
    Prop where
  /-- The first byte lies in the range. -/
  lower : range.start ≤ address
  /-- The last one does too. -/
  inRange : address + pattern.length ≤ range.stop
  /-- The block reaches as far. -/
  inBlock : address + pattern.length ≤ b.stop
  /-- So do its contents. -/
  inContents : address + pattern.length ≤ b.start + b.data.size
  /-- The contents agree with the pattern. -/
  bytes : ∀ i < pattern.length, b.data.data[(address - b.start).toNat + i]? = pattern[i]?

instance (b : Block) (pattern : List UInt8) (range : AddressRange) (address : Int) :
    Decidable (b.Stands pattern range address) :=
  decidable_of_iff (range.start ≤ address ∧ address + pattern.length ≤ range.stop ∧
      address + pattern.length ≤ b.stop ∧ address + pattern.length ≤ b.start + b.data.size ∧
      ∀ i < pattern.length, b.data.data[(address - b.start).toNat + i]? = pattern[i]?)
    ⟨fun h => ⟨h.1, h.2.1, h.2.2.1, h.2.2.2.1, h.2.2.2.2⟩,
      fun h => ⟨h.lower, h.inRange, h.inBlock, h.inContents, h.bytes⟩⟩

/-- A window of the data holds a pattern if they agree byte by byte. -/
theorem bytesAt_eq_iff {data : ByteArray} {pattern : List UInt8} {offset : Nat} :
    bytesAt data offset pattern.length = pattern ↔
      ∀ i < pattern.length, data.data[offset + i]? = pattern[i]? := by
  have byte : ∀ i < pattern.length,
      (bytesAt data offset pattern.length)[i]? = data.data[offset + i]? := by
    intro i inside
    rw [bytesAt_eq, List.getElem?_take_of_lt inside, List.getElem?_drop, Array.getElem?_toList]
  constructor
  · intro same i inside
    rw [← byte i inside, same]
  · intro agree
    refine List.ext_getElem? fun i => ?_
    by_cases inside : i < pattern.length
    · rw [byte i inside, agree i inside]
    · -- From the pattern's length on both have ended.
      have short := length_bytesAt data offset pattern.length
      rw [List.getElem?_eq_none (by omega), List.getElem?_eq_none (by omega)]

namespace Image

/-- The addresses at which `pattern` stands in `range`, found by trying all addresses of the block
    that the range starts in.  A block without contents is passed over. -/
def scanFor (img : Image) (pattern : List UInt8) (range : AddressRange) : List Int :=
  (img.blocks.filter fun b => b.initialized && decide (b.Covers range.start)).flatMap fun b =>
    b.places.filter fun a => decide (b.Stands pattern range a)

variable {img : Image} {pattern : List UInt8} {range : AddressRange}

/-- Where a pattern stands, it stands at an address of the block. -/
theorem mem_scanFor (filled : pattern ≠ []) {address : Int} :
    address ∈ img.scanFor pattern range ↔
      ∃ b ∈ img.blocks, b.initialized = true ∧ b.Covers range.start ∧
        b.Stands pattern range address := by
  have length := List.length_pos_iff.mpr filled
  simp only [scanFor, List.mem_flatMap, List.mem_filter, Bool.and_eq_true, decide_eq_true_eq,
    Block.mem_places_iff]
  constructor
  · rintro ⟨b, ⟨member, initialized, starts⟩, -, stands⟩
    exact ⟨b, member, initialized, starts, stands⟩
  · -- The pattern is not empty, so its first byte lies before the block's end.
    rintro ⟨b, member, initialized, starts, stands⟩
    have first := starts.1
    have lower := stands.lower
    have upper := stands.inBlock
    exact ⟨b, ⟨member, initialized, starts⟩, ⟨by omega, by omega⟩, stands⟩

/-- The plain way meets the addresses in increasing order. -/
theorem pairwise_scanFor (tidy : img.Tidy) (pattern : List UInt8) (range : AddressRange) :
    (img.scanFor pattern range).Pairwise (· < ·) :=
  tidy.pairwise_places _ _

/-! ### Searches -/

/-- A search of one range finds where the pattern stands in the block that the range starts in. -/
theorem mem_hitsIn_iff (tidy : img.Tidy) (forward : range.start ≤ range.stop) {address : Int} :
    address ∈ img.hitsIn pattern range ↔
      ∃ b ∈ img.blocks, b.initialized = true ∧ b.Covers range.start ∧
        b.Stands pattern range address := by
  constructor
  · intro hit
    -- something is found only if the range starts in a block with contents
    cases found : img.blockAt? range.start with
    | none =>
      rw [hitsIn, found] at hit
      cases hit
    | some b =>
      obtain ⟨member, covers⟩ := mem_of_blockAt? found
      cases initialized : b.initialized with
      | false =>
        rw [hitsIn, found] at hit
        simp only [initialized, Bool.not_false, if_true, List.not_mem_nil] at hit
      | true =>
        obtain ⟨lower, upper, fits, stands⟩ :=
          (mem_hitsIn found initialized forward pattern address).mp hit
        have first := covers.1
        exact ⟨b, member, initialized, covers, lower, by omega, by omega, by omega,
          bytesAt_eq_iff.mp stands⟩
  · rintro ⟨b, member, initialized, covers, stands⟩
    have found := (blockAt?_eq_some_iff tidy).mpr ⟨member, covers⟩
    have first := covers.1
    have lower := stands.lower
    have inContents := stands.inContents
    rw [mem_hitsIn found initialized forward]
    exact ⟨lower, le_min stands.inRange stands.inBlock, by omega, bytesAt_eq_iff.mpr stands.bytes⟩

/-- Both lists are increasing, so it is enough that they have the same members. -/
theorem hitsIn_eq_scanFor (tidy : img.Tidy) (filled : pattern ≠ [])
    (forward : range.start ≤ range.stop) :
    img.hitsIn pattern range = img.scanFor pattern range := by
  refine (img.pairwise_hitsIn pattern range).eq_of_mem_iff (pairwise_scanFor tidy pattern range)
    fun address => ?_
  rw [mem_hitsIn_iff tidy forward, mem_scanFor filled]

/-- **Byte search is exact.**  In an image with disjoint blocks of positive size, a search for a
    pattern gives, range by range, the increasing list of all addresses at which the bytes of the
    pattern stand.  Each of them stands in the range, in the block that the range starts in and in
    its contents.  A range that starts outside all blocks with contents gives nothing. -/
theorem findBytes_exact (img : Image) (tidy : img.Tidy) (pattern : List UInt8)
    (filled : pattern ≠ []) (ranges : List AddressRange)
    (forward : ∀ range ∈ ranges, range.start ≤ range.stop) :
    img.findBytes false pattern ranges = .ok (ranges.flatMap (img.scanFor pattern)) ∧
    ∀ range, (img.scanFor pattern range).Pairwise (· < ·) ∧
      ∀ address, address ∈ img.scanFor pattern range ↔
        ∃ b ∈ img.blocks, b.initialized = true ∧ b.Covers range.start ∧
          b.Stands pattern range address := by
  refine ⟨?_, fun range => ⟨pairwise_scanFor tidy pattern range, fun _ => mem_scanFor filled⟩⟩
  -- Nobody stops the search, so it goes over all ranges, and in each it does what the scan does.
  have same : ranges.flatMap (img.hitsIn pattern) = ranges.flatMap (img.scanFor pattern) :=
    List.flatMap_congr fun range member => hitsIn_eq_scanFor tidy filled (forward range member)
  rw [findBytes, if_neg (by rwa [List.isEmpty_iff]), ← same]
  rfl

/-- Five equal bytes in a block of four addresses, and a block without contents after it. -/
def samplePeriodic : Image :=
  { sampleWords with
    blocks := [{ start := 0x1000, data := ⟨#[7, 7, 7, 7, 7]⟩, size := 4 },
      { start := 0x1004, size := 8 }]
    ordered := by decide }

/-- Occurrences overlap; none reaches past the block, or past the range; and a search does not start
    in a block without contents. -/
theorem findBytes_exact_samplePeriodic : samplePeriodic.Tidy ∧
    samplePeriodic.findBytes false [7, 7]
        [⟨0x1001, 0x2000⟩, ⟨0x1004, 0x1010⟩, ⟨0x1000, 0x1003⟩, ⟨0x1002, 0x1002⟩] =
      .ok [0x1001, 0x1002, 0x1000, 0x1001] := by
  have tidy : samplePeriodic.Tidy := by decide
  refine ⟨tidy, ?_⟩
  rw [(findBytes_exact samplePeriodic tidy [7, 7] (List.cons_ne_nil _ _) _ (by decide)).1]
  decide +kernel

end Image

end ItaniumRtti
