import ItaniumRtti.Proofs.Occurrences
import ItaniumRtti.Proofs.Word
import Mathlib.Data.List.Sort

namespace ItaniumRtti

/-!
# Searches find exactly what reads see

* `Image.mem_addressSet`, `Image.pairwise_addressSet` — a set of addresses in increasing order;
* `Image.mem_hitsIn`, `Image.pairwise_hitsIn` — the addresses of a range at which a pattern stands,
  in increasing order;
* `Image.readBytes?_eq_some_iff` — bytes are read where they stand;
* `Image.mem_pointerHits` — the bytes of a pointer stand in the data exactly where it is read;
* `Image.findReferences_eq` — a reference search in terms of its two passes;
* `Image.DataWord` — a place that reference searches cover;
* `Image.of_findReferences_ok` — what a reference search has found;
* `Image.findReferences_spec` — the words that a reference search finds are the data words that
  resolve to the target.
-/

namespace Image

/-! ### Sets of addresses -/

/-- An insertion adds one address. -/
theorem mem_insertAddress (x address : Int) (set : List Int) :
    x ∈ insertAddress address set ↔ x = address ∨ x ∈ set := by
  fun_induction insertAddress address set with
  | case1 => simp only [List.mem_singleton, List.not_mem_nil, or_false]
  | case2 a rest before => simp only [List.mem_cons]
  | case3 rest same => simp only [List.mem_cons, or_self_left]
  | case4 a rest before other ih =>
    rw [List.mem_cons, List.mem_cons, ih]
    exact or_left_comm

/-- An insertion keeps the addresses in increasing order. -/
theorem pairwise_insertAddress (address : Int) {set : List Int} (sorted : set.Pairwise (· < ·)) :
    (insertAddress address set).Pairwise (· < ·) := by
  fun_induction insertAddress address set with
  | case1 => exact List.pairwise_singleton _ _
  | case2 a rest before =>
    refine List.pairwise_cons.mpr ⟨fun x member => ?_, sorted⟩
    rcases List.mem_cons.mp member with rfl | later
    · exact before
    · exact lt_trans before ((List.pairwise_cons.mp sorted).1 x later)
  | case3 rest same => exact sorted
  | case4 a rest before other ih =>
    obtain ⟨first, tail⟩ := List.pairwise_cons.mp sorted
    refine List.pairwise_cons.mpr ⟨fun x member => ?_, ih tail⟩
    -- What follows `a` is the new address, which is greater than `a`, or was there before.
    rcases (mem_insertAddress x address rest).mp member with rfl | later
    · omega
    · exact first x later

/-- Insertions one after the other keep the order and add what is inserted. -/
theorem foldl_insertAddress (addresses set : List Int) (sorted : set.Pairwise (· < ·)) :
    (addresses.foldl (fun set a => insertAddress a set) set).Pairwise (· < ·) ∧
      ∀ x, x ∈ addresses.foldl (fun set a => insertAddress a set) set ↔
        x ∈ addresses ∨ x ∈ set := by
  induction addresses generalizing set with
  | nil => exact ⟨sorted, fun x => by simp only [List.foldl_nil, List.not_mem_nil, false_or]⟩
  | cons a rest ih =>
    obtain ⟨pairwise, members⟩ := ih (insertAddress a set) (pairwise_insertAddress a sorted)
    refine ⟨pairwise, fun x => ?_⟩
    rw [List.foldl_cons, members, mem_insertAddress, List.mem_cons]
    tauto

/-- A set of addresses is in increasing order. -/
theorem pairwise_addressSet (addresses : List Int) : (addressSet addresses).Pairwise (· < ·) :=
  (foldl_insertAddress addresses [] List.Pairwise.nil).1

theorem mem_addressSet {addresses : List Int} {x : Int} :
    x ∈ addressSet addresses ↔ x ∈ addresses := by
  rw [addressSet, (foldl_insertAddress addresses [] List.Pairwise.nil).2]
  simp only [List.not_mem_nil, or_false]

/-- Only the members of a list matter to its set of addresses. -/
theorem addressSet_congr {first second : List Int} (same : ∀ x, x ∈ first ↔ x ∈ second) :
    addressSet first = addressSet second := by
  apply (pairwise_addressSet first).eq_of_mem_iff (pairwise_addressSet second)
  intro x
  rw [mem_addressSet, mem_addressSet, same]

end Image

/-! ### Hits in a range -/

namespace Image

variable {img : Image}

/-- Where a pattern stands in a range that starts in a block with contents: it ends in the range, in
    the block and in the block's contents. -/
theorem mem_hitsIn {range : AddressRange} {b : Block} (found : img.blockAt? range.start = some b)
    (initialized : b.initialized = true) (forward : range.start ≤ range.stop)
    (pattern : List UInt8) (address : Int) :
    address ∈ img.hitsIn pattern range ↔
      range.start ≤ address ∧ address + pattern.length ≤ min range.stop b.stop ∧
        (address - b.start).toNat + pattern.length ≤ b.data.size ∧
        bytesAt b.data (address - b.start).toNat pattern.length = pattern := by
  have covers := (mem_of_blockAt? found).2
  have inside := covers.1
  have past := covers.2
  -- The range starts in the block, so the end of the search is not negative and is not counted from
  -- the end of the contents.
  have clipped : searchEnd b.data.size (min range.stop b.stop - b.start) =
      min (min range.stop b.stop - b.start).toNat b.data.size := by
    rw [searchEnd, if_neg (by omega)]
  rw [hitsIn, found]
  simp only [initialized, Bool.not_true, Bool.false_eq_true, if_false, clipped, List.mem_map,
    mem_occurrences]
  constructor
  · rintro ⟨offset, ⟨lower, fits, stands⟩, rfl⟩
    have offset_eq : (b.start + offset - b.start).toNat = offset := by omega
    rw [offset_eq]
    exact ⟨by omega, by omega, by omega, stands⟩
  · rintro ⟨lower, upper, fits, stands⟩
    exact ⟨(address - b.start).toNat, ⟨by omega, by omega, stands⟩, by omega⟩

/-- A search goes through a range upwards. -/
theorem pairwise_hitsIn (img : Image) (pattern : List UInt8) (range : AddressRange) :
    (img.hitsIn pattern range).Pairwise (· < ·) := by
  rw [hitsIn]
  split
  · exact List.Pairwise.nil
  · split
    · exact List.Pairwise.nil
    · rw [List.pairwise_map]
      refine (pairwise_occurrences _ pattern _ _).imp fun {i j} less => ?_
      omega

/-- Where a pattern stands in the whole range of a block with contents. -/
theorem mem_hitsIn_block (tidy : img.Tidy) {b : Block} (member : b ∈ img.blocks)
    (initialized : b.initialized = true) (pattern : List UInt8) (address : Int) :
    address ∈ img.hitsIn pattern ⟨b.start, b.stop⟩ ↔
      b.start ≤ address ∧ address + pattern.length ≤ b.stop ∧
        (address - b.start).toNat + pattern.length ≤ b.data.size ∧
        bytesAt b.data (address - b.start).toNat pattern.length = pattern := by
  have positive := tidy.positive b member
  have forward : b.start ≤ b.stop := by
    rw [Block.stop]
    omega
  have hits := @mem_hitsIn img ⟨b.start, b.stop⟩ b (blockAt?_start tidy member) initialized forward
    pattern address
  rwa [min_self] at hits

/-- In a block with contents, bytes are read where they stand. -/
theorem readBytes?_eq_some_iff {address : Int} {b : Block} (found : img.blockAt? address = some b)
    (initialized : b.initialized = true) {bytes : List UInt8} (filled : bytes ≠ []) :
    img.readBytes? address bytes.length = some bytes ↔
      address + bytes.length ≤ b.stop ∧ (address - b.start).toNat + bytes.length ≤ b.data.size ∧
        bytesAt b.data (address - b.start).toNat bytes.length = bytes := by
  have start := (mem_of_blockAt? found).2.1
  have positive := List.length_pos_iff.mpr filled
  have natural : ¬ (bytes.length : Int) < 0 := by omega
  have read := length_bytesAt b.data (address - b.start).toNat bytes.length
  rw [readBytes?, found]
  by_cases inside : address + bytes.length ≤ b.stop
  · have contains := (b.contains_iff address bytes.length).mpr ⟨start, inside⟩
    simp only [natural, contains, initialized, decide_false, Bool.not_true, Bool.or_self,
      Bool.false_eq_true, if_false, Int.toNat_natCast, Option.some.injEq, inside, true_and]
    refine ⟨fun stands => ⟨?_, stands⟩, And.right⟩
    -- what is read past the contents would be too short
    rw [stands] at read
    omega
  · have outside : b.contains address bytes.length = false := by
      rw [Bool.eq_false_iff, Ne, b.contains_iff]
      omega
    simp only [outside, Bool.not_false, Bool.or_true, if_true, reduceCtorEq, inside, false_and]

/-! ### Pointers and their bytes -/

/-- The bytes to look for exist if the target fits in a pointer and the byte order is known. -/
theorem needle_eq_ok_iff {target : Nat} {bytes : List UInt8} :
    img.needle target = .ok bytes ↔
      img.order.bytes? img.width.bytes target = some bytes ∧ target < img.width.span := by
  rw [needle]
  cases img.order.bytes? img.width.bytes target with
  | none => simp only [reduceCtorEq, false_and]
  | some written =>
    by_cases large : img.width.span ≤ target
    · simp only [if_pos large, reduceCtorEq, false_iff, not_and, not_lt]
      exact fun _ => large
    · simp only [if_neg large, Except.ok.injEq, Option.some.injEq, Nat.lt_of_not_le large, and_true]

/-- In a block with contents, a pointer is read exactly where its bytes stand. -/
theorem readPointer_eq_iff {address : Int} {b : Block} (found : img.blockAt? address = some b)
    (initialized : b.initialized = true) {target : Nat} {bytes : List UInt8}
    (written : img.needle target = .ok bytes) :
    img.readPointer address = .ok (some (target : Int)) ↔
      address + bytes.length ≤ b.stop ∧ (address - b.start).toNat + bytes.length ≤ b.data.size ∧
        bytesAt b.data (address - b.start).toNat bytes.length = bytes := by
  obtain ⟨encoded, small⟩ := needle_eq_ok_iff.mp written
  have length : bytes.length = img.width.bytes := ByteOrder.length_of_bytes? encoded
  have filled : bytes ≠ [] := by
    have := img.width.bytes_pos
    rw [← List.length_pos_iff]
    omega
  -- a pointer is read from the bytes that it is written as, and from no others
  suffices reads : img.readPointer address = .ok (some (target : Int)) ↔
      img.readBytes? address bytes.length = some bytes by
    rw [reads, readBytes?_eq_some_iff found initialized filled]
  rw [readPointer, readInt, length, ← Image.ptr]
  cases read : img.readBytes? address img.ptr with
  | none => simp only [Except.ok.injEq, reduceCtorEq]
  | some stored =>
    rw [Option.some.injEq]
    by_cases whole : (stored.length : Int) ≠ img.ptr
    · simp only [if_pos whole, Except.ok.injEq, reduceCtorEq, false_iff]
      rintro rfl
      exact whole (congrArg Nat.cast length)
    · have value := ByteOrder.value?_eq_some_iff img.order stored target
      have same : stored.length = img.width.bytes := by
        rw [Image.ptr] at whole
        omega
      rw [same, encoded, Option.some.injEq] at value
      have reads : stored = bytes ↔ img.order.value? stored = some target :=
        ⟨fun is => value.mpr ⟨small, is.symm⟩, fun is => (value.mp is).2.symm⟩
      rw [reads]
      cases decoded : img.order.value? stored with
      | none => simp only [if_neg whole, decoded, reduceCtorEq]
      | some n =>
        simp only [if_neg whole, decoded, Bool.false_eq_true, if_false, Except.ok.injEq,
          Option.some.injEq, Int.natCast_inj]

/-- A stored pointer is not negative and fits in a word. -/
theorem readPointer_bounds {address value : Int}
    (read : img.readPointer address = .ok (some value)) :
    0 ≤ value ∧ value < img.width.span := by
  simp only [readPointer, readInt] at read
  cases stored : img.readBytes? address img.ptr with
  | none => simp only [stored, Except.ok.injEq, reduceCtorEq] at read
  | some bytes =>
    by_cases whole : (bytes.length : Int) ≠ img.ptr
    · simp only [stored, if_pos whole, Except.ok.injEq, reduceCtorEq] at read
    · cases decoded : img.order.value? bytes with
      | none => simp only [stored, if_neg whole, decoded, reduceCtorEq] at read
      | some n =>
        simp only [stored, if_neg whole, decoded, Bool.false_eq_true, if_false, Except.ok.injEq,
          Option.some.injEq] at read
        -- A number of as many bytes as a pointer has is below the span of a pointer.
        have small := ((img.order.value?_eq_some_iff bytes n).mp decoded).1
        have length : bytes.length = img.width.bytes := by
          rw [Image.ptr] at whole
          omega
        rw [length, ← PointerWidth.span] at small
        omega

/-- A pointer other than zero is stored in a block with contents. -/
theorem initialized_of_readPointer {address value : Int} {b : Block}
    (found : img.blockAt? address = some b) (read : img.readPointer address = .ok (some value))
    (nonzero : value ≠ 0) : b.initialized = true := by
  -- A block without contents reads as zeros.
  by_contra empty
  rw [Bool.not_eq_true] at empty
  obtain ⟨_, again, inside⟩ := blockAt?_of_readInt read
  cases found.symm.trans again
  have positive : ¬ img.ptr < 0 := by
    have := img.ptr_pos
    omega
  simp only [readPointer, readInt, readBytes?, found, inside, empty, positive, decide_false,
    Bool.not_true, Bool.not_false, Bool.or_self, Bool.false_eq_true, if_false, if_true,
    List.length_replicate] at read
  split at read
  · cases read
  · split at read
    · cases read
    · next n zeros =>
      rw [ByteOrder.eq_zero_of_value?_replicate zeros] at read
      exact nonzero (Option.some.inj (Except.ok.inj read)).symm

/-- The bytes of a pointer stand in the data exactly where the pointer is stored. -/
theorem mem_pointerHits (tidy : img.Tidy) {target : Nat} {bytes : List UInt8}
    (written : img.needle target = .ok bytes) (address : Int) :
    address ∈ img.dataRanges.flatMap (img.hitsIn bytes) ↔
      ∃ b ∈ img.blocks, b.Covers address ∧ b.executable = false ∧ b.initialized = true ∧
        img.readPointer address = .ok (some (target : Int)) := by
  have length : 0 < bytes.length := by
    rw [ByteOrder.length_of_bytes? (needle_eq_ok_iff.mp written).1]
    exact img.width.bytes_pos
  simp only [dataRanges, List.mem_flatMap, List.mem_map, List.mem_filter, Bool.and_eq_true,
    Bool.not_eq_true']
  -- On both sides the block that covers the address is the one that the search or the read goes to.
  constructor
  · rintro ⟨_, ⟨b, ⟨member, initialized, data⟩, rfl⟩, hit⟩
    obtain ⟨lower, upper, fits, stands⟩ :=
      (mem_hitsIn_block tidy member initialized bytes address).mp hit
    have covers : b.Covers address := ⟨lower, by omega⟩
    have found := (blockAt?_eq_some_iff tidy).mpr ⟨member, covers⟩
    exact ⟨b, member, covers, data, initialized,
      (readPointer_eq_iff found initialized written).mpr ⟨upper, fits, stands⟩⟩
  · rintro ⟨b, member, covers, data, initialized, read⟩
    have found := (blockAt?_eq_some_iff tidy).mpr ⟨member, covers⟩
    refine ⟨_, ⟨b, ⟨member, initialized, data⟩, rfl⟩, ?_⟩
    rw [mem_hitsIn_block tidy member initialized]
    exact ⟨covers.1, (readPointer_eq_iff found initialized written).mp read⟩

/-! ### References -/

/-- The words that a reference search keeps: of the `hits` those that are not relocated, and the
    relocated words that lead to the target. -/
def referencesAmong (img : Image) (hits : List Int) (target alignment : Int) : List Int :=
  (hits.filter fun a => a % alignment == 0 && (img.relocationAt? a).isNone) ++
    (img.relocationList.filter fun (a, r) =>
      a % alignment == 0 && img.relocatesTo target a r).map (·.1)

theorem mem_relocationList {address : Int} {r : Relocation} :
    (address, r) ∈ img.relocationList ↔ img.relocationAt? address = some r :=
  Std.TreeMap.mem_toList_iff_getElem?_eq_some

/-- What is kept is aligned, and is a hit that no relocation overwrites or a relocated word that
    leads to the target. -/
theorem mem_referencesAmong {hits : List Int} {target alignment address : Int} :
    address ∈ img.referencesAmong hits target alignment ↔ address % alignment = 0 ∧
      (address ∈ hits ∧ img.relocationAt? address = none ∨
        ∃ r, img.relocationAt? address = some r ∧ img.relocatesTo target address r = true) := by
  simp only [referencesAmong, List.mem_append, List.mem_filter, List.mem_map, Bool.and_eq_true,
    beq_iff_eq, Option.isNone_iff_eq_none, Prod.exists, mem_relocationList]
  constructor
  · rintro (⟨hit, aligned, plain⟩ | ⟨_, r, ⟨relocation, aligned, leads⟩, rfl⟩)
    · exact ⟨aligned, .inl ⟨hit, plain⟩⟩
    · exact ⟨aligned, .inr ⟨r, relocation, leads⟩⟩
  · rintro ⟨aligned, ⟨hit, plain⟩ | ⟨r, relocation, leads⟩⟩
    · exact .inl ⟨hit, aligned, plain⟩
    · exact .inr ⟨address, r, ⟨relocation, aligned, leads⟩, rfl⟩

/-- The bytes that a reference search looks for: those of the target, or none if it is negative. -/
def referencePattern (img : Image) (target : Int) : Except Fault (List UInt8) :=
  if 0 ≤ target then img.needle target.toNat else .ok []

/-- A reference search in terms of its pattern, its hits and the words it keeps of them. -/
theorem findReferences_eq {alignment : Int} (nonzero : alignment ≠ 0) (cancelled : Bool)
    (target : Int) :
    img.findReferences cancelled target alignment =
      (img.referencePattern target).bind fun pattern =>
        (img.findBytes cancelled pattern img.dataRanges).bind fun hits =>
          if cancelled then .error .cancelled
          else .ok (addressSet (img.referencesAmong hits target alignment)) := by
  -- The check of the alignment never stops a search with another alignment.
  have kept : ∀ hits : List Int,
      ¬ (decide (alignment = 0) && !(hits.isEmpty && img.relocations.isEmpty)) = true := by
    intro hits
    simp only [nonzero, decide_false, Bool.false_and, Bool.false_eq_true, not_false_eq_true]
  have search : ∀ pattern : List UInt8,
      (img.findBytes cancelled pattern img.dataRanges).bind (fun hits =>
        if decide (alignment = 0) && !(hits.isEmpty && img.relocations.isEmpty) then
          .error .zeroAlignment
        else if cancelled then .error .cancelled
        else .ok (addressSet (img.referencesAmong hits target alignment))) =
      (img.findBytes cancelled pattern img.dataRanges).bind fun hits =>
        if cancelled then .error .cancelled
        else .ok (addressSet (img.referencesAmong hits target alignment)) := by
    intro pattern
    congr 1
    funext hits
    exact if_neg (kept hits)
  rw [findReferences, referencePattern]
  split
  · cases img.needle target.toNat with
    | error fault => rfl
    | ok pattern => exact search pattern
  · exact search []

/-- The hits of a reference search are the data words in which the target is stored. -/
theorem mem_hits_iff (tidy : img.Tidy) {cancelled : Bool} {target : Int} {pattern : List UInt8}
    {hits : List Int} (written : img.referencePattern target = .ok pattern)
    (found : img.findBytes cancelled pattern img.dataRanges = .ok hits) (address : Int) :
    address ∈ hits ↔
      ∃ b ∈ img.blocks, b.Covers address ∧ b.executable = false ∧ b.initialized = true ∧
        img.readPointer address = .ok (some target) := by
  rw [referencePattern] at written
  rw [findBytes] at found
  split at written
  · next positive =>
    have length := ByteOrder.length_of_bytes? (needle_eq_ok_iff.mp written).1
    have filled : pattern.isEmpty = false := by
      have := img.width.bytes_pos
      rw [List.isEmpty_eq_false_iff_exists_mem]
      exact List.exists_mem_of_length_pos (by omega)
    rw [if_neg (by rw [filled]; exact Bool.false_ne_true)] at found
    split at found
    · cases found
    · rw [← Except.ok.inj found, mem_pointerHits tidy written, Int.toNat_of_nonneg positive]
  · next negative =>
    -- Nothing is searched for, and no stored pointer is negative.
    cases written
    rw [if_pos List.isEmpty_nil] at found
    rw [← Except.ok.inj found]
    simp only [List.not_mem_nil, false_iff]
    rintro ⟨b, -, -, -, -, read⟩
    exact negative (readPointer_bounds read).1

/-- `address` lies outside the code, in a block with contents unless the word there is relocated. -/
def DataWord (img : Image) (address : Int) : Prop :=
  ∃ b ∈ img.blocks, b.Covers address ∧ b.executable = false ∧
    (b.initialized = true ∨ (img.relocationAt? address).isSome = true)

/-- A reference search keeps the aligned data words that resolve to the target. -/
theorem mem_references_iff (tidy : img.Tidy) {cancelled : Bool} {target : Int}
    {pattern : List UInt8} {hits : List Int} (written : img.referencePattern target = .ok pattern)
    (found : img.findBytes cancelled pattern img.dataRanges = .ok hits) {alignment address : Int} :
    address ∈ addressSet (img.referencesAmong hits target alignment) ↔
      address % alignment = 0 ∧ img.resolve address = .ok (some target) ∧
        img.DataWord address := by
  rw [mem_addressSet, mem_referencesAmong, mem_hits_iff tidy written found]
  refine and_congr_right fun _ => ?_
  rw [resolve, DataWord]
  cases relocation : img.relocationAt? address with
  | none =>
    -- Without a relocation the word was found by its bytes, in a block with contents.
    simp only [Option.isSome_none, Bool.false_eq_true, or_false, reduceCtorEq, false_and,
      exists_false, and_true]
    constructor
    · rintro ⟨b, member, covers, data, initialized, read⟩
      exact ⟨read, b, member, covers, data, initialized⟩
    · rintro ⟨read, b, member, covers, data, initialized⟩
      exact ⟨b, member, covers, data, initialized, read⟩
  | some r =>
    -- A relocated word was found by its relocation, in any block that is not code.
    simp only [reduceCtorEq, and_false, Option.some.injEq, exists_eq_left', false_or,
      Option.isSome_some, or_true, and_true, relocatesTo, Bool.and_eq_true, beq_iff_eq,
      Except.ok.injEq]
    rw [and_comm]
    refine and_congr_right fun _ => ?_
    simp only [Option.any_eq_true, blockAt?_eq_some_iff tidy, Bool.not_eq_true', and_assoc]

/-- A reference search that ends has found the words that it looks for, in order. -/
theorem of_findReferences_ok (tidy : img.Tidy) {cancelled : Bool} {target alignment : Int}
    (nonzero : alignment ≠ 0) {found : List Int}
    (searched : img.findReferences cancelled target alignment = .ok found) :
    found.Pairwise (· < ·) ∧ ∀ address, address ∈ found ↔
      address % alignment = 0 ∧ img.resolve address = .ok (some target) ∧
        img.DataWord address := by
  rw [findReferences_eq nonzero] at searched
  -- A search can stop at three points: while it writes its pattern, while it looks for it and
  -- before it filters. Past them it has the set.
  cases written : img.referencePattern target with
  | error fault =>
    rw [written] at searched
    cases searched
  | ok pattern =>
    rw [written] at searched
    change (img.findBytes cancelled pattern img.dataRanges).bind _ = _ at searched
    cases hit : img.findBytes cancelled pattern img.dataRanges with
    | error fault =>
      rw [hit] at searched
      cases searched
    | ok hits =>
      rw [hit] at searched
      change (if cancelled = true then _ else _) = _ at searched
      split at searched
      · cases searched
      · rw [← Except.ok.inj searched]
        exact ⟨pairwise_addressSet _, fun address => mem_references_iff tidy written hit⟩

/-- In a known byte order every target that fits in a pointer can be searched for. -/
theorem findReferences_ok (known : img.order.Known) {target alignment : Int}
    (fits : target < img.width.span) (nonzero : alignment ≠ 0) :
    ∃ found, img.findReferences false target alignment = .ok found := by
  -- Only targets that are not negative are looked for as bytes, and those fit in a pointer.
  obtain ⟨pattern, written⟩ : ∃ pattern, img.referencePattern target = .ok pattern := by
    rw [referencePattern]
    split
    · obtain ⟨bytes, encoded⟩ := ByteOrder.bytes?_isSome known img.width.bytes target.toNat
      exact ⟨bytes, needle_eq_ok_iff.mpr ⟨encoded, by omega⟩⟩
    · exact ⟨[], rfl⟩
  obtain ⟨hits, found⟩ : ∃ hits, img.findBytes false pattern img.dataRanges = .ok hits := by
    rw [findBytes]
    split
    · exact ⟨[], rfl⟩
    · exact ⟨_, rfl⟩
  refine ⟨addressSet (img.referencesAmong hits target alignment), ?_⟩
  rw [findReferences_eq nonzero, written]
  show (img.findBytes false pattern img.dataRanges).bind _ = _
  rw [found]
  rfl

/-- **Reference search agrees with reads.**  The words found for a target that fits in a pointer are
    the aligned data words that resolve to it. -/
theorem findReferences_spec (tidy : img.Tidy) (known : img.order.Known) {target alignment : Int}
    (fits : target < img.width.span) (nonzero : alignment ≠ 0) :
    ∃ found, img.findReferences false target alignment = .ok found ∧ found.Pairwise (· < ·) ∧
      ∀ address, address ∈ found ↔
        address % alignment = 0 ∧ img.resolve address = .ok (some target) ∧
          img.DataWord address := by
  obtain ⟨found, searched⟩ := findReferences_ok known fits nonzero
  exact ⟨found, searched, of_findReferences_ok tidy nonzero searched⟩

end Image

end ItaniumRtti
