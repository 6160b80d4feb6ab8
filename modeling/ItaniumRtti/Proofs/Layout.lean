import ItaniumRtti.Proofs.Search
import ItaniumRtti.Vtable.Parse

namespace ItaniumRtti

/-!
# Tables as they are laid out

A compiler writes a vtable group as words that follow each other without gaps.

* `PointerWidth.Word` — a word, which can be read signed or unsigned;
* `Image.Stores` — words that stand one after the other in the contents of a block;
* `Image.HoldsRun` — such words, as they are read back;
* `TableLayout` — a sub-table before it is written;
* `Context.tablesOf` — the sub-tables that a list of layouts describes.
-/

/-! ### Words -/

/-- A pointer-sized word. -/
abbrev PointerWidth.Word (width : PointerWidth) : Type :=
  BitVec (8 * width.bytes)

theorem pow_256_eq (count : Nat) : Nat.pow 256 count = Nat.pow 2 (8 * count) :=
  (Nat.pow_mul 2 8 count).symm

theorem PointerWidth.toNat_lt_span {width : PointerWidth} (w : width.Word) :
    w.toNat < width.span := by
  rw [span, pow_256_eq]
  exact w.isLt

/-- The two's complement reading of a word. -/
theorem signedValue_toNat {count : Nat} (w : BitVec (8 * count)) :
    signedValue count w.toNat = w.toInt := by
  rw [signedValue, BitVec.toInt_eq_toNat_cond, pow_256_eq]
  rfl

namespace Image

variable {img : Image} {b : Block} {address : Int}

/-- The bytes of words that follow each other. -/
def wordBytes? (img : Image) : List img.width.Word → Option (List UInt8)
  | [] => some []
  | w :: rest => do
    let first ← img.order.bytes? img.width.bytes w.toNat
    let more ← wordBytes? img rest
    return first ++ more

theorem wordBytes?_cons {w : img.width.Word} {rest : List img.width.Word} {bytes : List UInt8}
    (written : img.wordBytes? (w :: rest) = some bytes) :
    ∃ first more, img.order.bytes? img.width.bytes w.toNat = some first ∧
      img.wordBytes? rest = some more ∧ bytes = first ++ more := by
  simp only [wordBytes?, Option.bind_eq_bind, Option.bind_eq_some_iff, Option.pure_def,
    Option.some.injEq] at written
  obtain ⟨first, here, more, there, rfl⟩ := written
  exact ⟨first, more, here, there, rfl⟩

/-- The words stand one after the other in the contents of the block from `address` on. -/
structure Stores (img : Image) (b : Block) (address : Int) (words : List img.width.Word) :
    Prop where
  /-- They do not start before the block. -/
  start : b.start ≤ address
  /-- They end with the block at the latest. -/
  stop : address + img.ptr * words.length ≤ b.stop
  /-- Their bytes are there. -/
  bytes : ∃ bytes, img.wordBytes? words = some bytes ∧
    bytesAt b.data (address - b.start).toNat bytes.length = bytes

end Image

/-- The size of a list of items that take `size` each. -/
theorem mul_length_cons {α : Type} (size : Int) (a : α) (rest : List α) :
    size * ((a :: rest).length : Int) = size + size * rest.length := by
  rw [List.length_cons, Int.natCast_succ, Int.mul_add, Int.mul_one, Int.add_comm]

theorem add_mul_length_nil {α : Type} (address size : Int) :
    address + size * (([] : List α).length : Int) = address := by
  rw [List.length_nil, Int.natCast_zero, Int.mul_zero, Int.add_zero]

/-- Where two runs of bytes stand one after the other, each of them stands. -/
theorem bytesAt_append {data : ByteArray} {offset : Nat} {first more : List UInt8}
    (stand : bytesAt data offset (first ++ more).length = first ++ more) :
    bytesAt data offset first.length = first ∧
      bytesAt data (offset + first.length) more.length = more := by
  rw [bytesAt_eq] at stand
  rw [bytesAt_eq, bytesAt_eq, ← List.drop_drop]
  generalize data.data.toList.drop offset = rest at stand
  -- Both runs are complete, so the first of them fills exactly its own length.
  have enough := congrArg List.length stand
  rw [List.length_take, List.length_append] at enough
  rw [List.length_append, List.take_add] at stand
  exact List.append_inj stand (by rw [List.length_take]; omega)

/-- Bytes that stand in the contents lie in them. -/
theorem le_size_of_bytesAt {data : ByteArray} {offset : Nat} {bytes : List UInt8}
    (stand : bytesAt data offset bytes.length = bytes) (nonempty : 0 < bytes.length) :
    offset + bytes.length ≤ data.size := by
  have length := congrArg List.length stand
  rw [length_bytesAt] at length
  omega

namespace Image

variable {img : Image} {b : Block} {address : Int} {w : img.width.Word}
  {rest : List img.width.Word}

/-- Words after the first one stand after it. -/
theorem Stores.tail (stores : img.Stores b address (w :: rest)) :
    img.Stores b (address + img.ptr) rest := by
  obtain ⟨start, stop, bytes, written, stand⟩ := stores
  obtain ⟨first, more, here, there, rfl⟩ := wordBytes?_cons written
  have length : first.length = img.width.bytes := ByteOrder.length_of_bytes? here
  have positive := img.ptr_pos
  refine ⟨by omega, ?_, more, there, ?_⟩
  · rw [mul_length_cons] at stop
    omega
  · -- The next word starts where the bytes of the first end.
    have offset : (address + img.ptr - b.start).toNat =
        (address - b.start).toNat + first.length := by
      rw [length, ptr]
      omega
    rw [offset]
    exact (bytesAt_append stand).2

/-- The block has contents, and covers the first of the words. -/
theorem Stores.block (tidy : img.Tidy) (member : b ∈ img.blocks)
    (stores : img.Stores b address (w :: rest)) :
    img.blockAt? address = some b ∧ b.initialized = true := by
  obtain ⟨start, stop, bytes, written, stand⟩ := stores
  obtain ⟨first, more, here, there, rfl⟩ := wordBytes?_cons written
  have length : first.length = img.width.bytes := ByteOrder.length_of_bytes? here
  have positive := img.width.bytes_pos
  have others : 0 ≤ img.ptr * rest.length := Int.mul_nonneg (by rw [ptr]; omega) (by omega)
  -- The bytes of the first word are there, so the contents are not empty.
  have full := le_size_of_bytesAt (bytesAt_append stand).1 (by omega)
  rw [mul_length_cons] at stop
  rw [blockAt?_eq_some_iff tidy]
  exact ⟨⟨member, start, by have := img.ptr_pos; omega⟩, decide_eq_true (by omega)⟩

/-- The first of the words can be read. -/
theorem Stores.head (tidy : img.Tidy) (member : b ∈ img.blocks)
    (stores : img.Stores b address (w :: rest)) :
    b.contains address img.ptr = true ∧ img.readPointer address = .ok (some (w.toNat : Int)) := by
  obtain ⟨found, initialized⟩ := stores.block tidy member
  obtain ⟨start, stop, bytes, written, stand⟩ := stores
  obtain ⟨first, more, here, there, rfl⟩ := wordBytes?_cons written
  have length : first.length = img.width.bytes := ByteOrder.length_of_bytes? here
  have positive := img.width.bytes_pos
  have others : 0 ≤ img.ptr * rest.length := Int.mul_nonneg (by rw [ptr]; omega) (by omega)
  have inside : address + img.ptr ≤ b.stop := by
    rw [mul_length_cons] at stop
    omega
  have full := le_size_of_bytesAt (bytesAt_append stand).1 (by omega)
  -- The bytes that a search would look for are those that are stored.
  have needle : img.needle w.toNat = .ok first :=
    needle_eq_ok_iff.mpr ⟨here, PointerWidth.toNat_lt_span w⟩
  refine ⟨(b.contains_iff _ _).mpr ⟨start, inside⟩, ?_⟩
  rw [readPointer_eq_iff found initialized needle]
  exact ⟨by rw [length]; exact inside, full, (bytesAt_append stand).1⟩

/-! ### Words as they are read back -/

/-- The word `w` stands at `address` in the block, and no relocation changes it. -/
structure Holds (img : Image) (b : Block) (address : Int) (w : img.width.Word) : Prop where
  /-- The word lies in the block. -/
  inside : b.contains address img.ptr = true
  /-- It is not relocated. -/
  unrelocated : img.relocationAt? address = none
  /-- It is read. -/
  read : img.readPointer address = .ok (some (w.toNat : Int))

/-- The word is a pointer, since nothing relocates it. -/
theorem Holds.resolve (holds : img.Holds b address w) :
    img.resolve address = .ok (some (w.toNat : Int)) := by
  rw [Image.resolve, holds.unrelocated]
  exact holds.read

/-- Read with a sign, the word is its signed value. -/
theorem Holds.readInt (holds : img.Holds b address w) :
    img.readInt address img.ptr true = .ok (some w.toInt) := by
  have size : img.ptr.toNat = img.width.bytes := by
    rw [ptr]
    omega
  have read : img.readInt address img.ptr false = .ok (some (w.toNat : Int)) := holds.read
  rw [readInt_signed, read]
  show Except.ok (some (signedValue img.ptr.toNat w.toNat)) = _
  rw [size, signedValue_toNat]

/-- The words stand one after the other from `address` on, and no symbol stands at them, though one
    may stand at the `first`. -/
def HoldsRun (img : Image) (b : Block) : Bool → Int → List img.width.Word → Prop
  | _, _, [] => True
  | first, address, w :: rest =>
    (first = false → img.hasSymbolAt address = false) ∧ img.Holds b address w ∧
      HoldsRun img b false (address + img.ptr) rest

/-- No symbol ends the run at its start. -/
theorem HoldsRun.unmarked {first : Bool} {words : List img.width.Word}
    (run : img.HoldsRun b first address words) (nonempty : words ≠ []) :
    (!first && img.hasSymbolAt address) = false := by
  cases words with
  | nil => exact absurd rfl nonempty
  | cons w rest =>
    cases first with
    | false => rw [run.1 rfl, Bool.and_false]
    | true => rfl

/-- A symbol may be allowed at the first word. -/
theorem HoldsRun.asFirst {first : Bool} {words : List img.width.Word}
    (run : img.HoldsRun b first address words) : img.HoldsRun b true address words := by
  cases words with
  | nil => trivial
  | cons w rest => exact ⟨fun never => Bool.noConfusion never, run.2⟩

/-- What follows some of the words. -/
theorem HoldsRun.drop {first : Bool} {front words : List img.width.Word}
    (run : img.HoldsRun b first address (front ++ words)) (later : front ≠ []) :
    img.HoldsRun b false (address + img.ptr * front.length) words := by
  induction front generalizing first address with
  | nil => exact absurd rfl later
  | cons w front ih =>
    have next : address + img.ptr * (w :: front).length =
        address + img.ptr + img.ptr * front.length := by
      rw [mul_length_cons]
      omega
    rw [next]
    -- From the second word on, no symbol is allowed.
    cases front with
    | nil =>
      rw [add_mul_length_nil]
      exact run.2.2
    | cons v front => exact ih run.2.2 (List.cons_ne_nil v front)

/-- The words end with the block at the latest. -/
theorem HoldsRun.stop_le {first : Bool} {words : List img.width.Word}
    (run : img.HoldsRun b first address words) (nonempty : words ≠ []) :
    address + img.ptr * words.length ≤ b.stop := by
  induction words generalizing first address with
  | nil => exact absurd rfl nonempty
  | cons w rest ih =>
    have inside := (b.contains_iff _ _).mp run.2.1.inside
    rw [mul_length_cons]
    -- The last word lies in the block, and all others are before it.
    cases rest with
    | nil =>
      rw [List.length_nil]
      omega
    | cons v rest =>
      have later := ih run.2.2 (List.cons_ne_nil v rest)
      omega

/-- Words that were written where nothing is relocated and no symbol stands after the first are
    read back. -/
theorem Stores.holdsRun (tidy : img.Tidy) (member : b ∈ img.blocks) {words : List img.width.Word}
    (stores : img.Stores b address words) {first : Bool}
    (unrelocated : ∀ a, address ≤ a → a < address + img.ptr * words.length →
      img.relocationAt? a = none)
    (unnamed : ∀ a, address < a ∨ first = false ∧ address ≤ a →
      a < address + img.ptr * words.length → img.hasSymbolAt a = false) :
    img.HoldsRun b first address words := by
  -- After the first word `first` is false, and what was asked of later addresses is asked of all.
  induction words generalizing first address with
  | nil => trivial
  | cons w rest ih =>
    have positive := img.ptr_pos
    have others : 0 ≤ img.ptr * rest.length := Int.mul_nonneg (by omega) (by omega)
    rw [mul_length_cons] at unrelocated unnamed
    obtain ⟨inside, read⟩ := stores.head tidy member
    refine ⟨fun later => ?_, ⟨inside, ?_, read⟩, ?_⟩
    · exact unnamed address (.inr ⟨later, le_refl address⟩) (by omega)
    · exact unrelocated address (le_refl address) (by omega)
    · refine ih stores.tail (fun a lower upper => ?_) fun a lower upper => ?_
      · exact unrelocated a (by omega) (by omega)
      · exact unnamed a (.inl (by omega)) (by omega)

end Image

/-! ### Layouts -/

/-- A sub-table before it is written. -/
structure TableLayout (width : PointerWidth) where
  /-- Offset words before the header. -/
  vcallOffsets : List width.Word
  /-- Offset to the top. -/
  offsetToTop : width.Word
  /-- Virtual function pointers. -/
  slots : List width.Word
  /-- There is a slot. -/
  occupied : slots ≠ []

namespace TableLayout

variable {width : PointerWidth} (l : TableLayout width)

/-- The words that are offsets. -/
def offsets : List width.Word :=
  l.vcallOffsets ++ [l.offsetToTop]

/-- The words of the table of a class whose type_info stands at `owner`. -/
def words (owner : width.Word) : List width.Word :=
  l.vcallOffsets ++ l.offsetToTop :: owner :: l.slots

/-- The number of words. -/
def size : Nat :=
  l.vcallOffsets.length + 2 + l.slots.length

@[simp] theorem length_words (owner : width.Word) : (l.words owner).length = l.size := by
  rw [words, size, List.length_append, List.length_cons, List.length_cons]
  omega

/-- The room that a table takes, part by part. -/
theorem mul_size (p : Int) :
    p * (l.size : Int) = p * l.vcallOffsets.length + 2 * p + p * l.slots.length := by
  rw [size, Int.natCast_add, Int.natCast_add, Int.mul_add, Int.mul_add, Int.mul_comm 2]
  rfl

theorem words_ne_nil (owner : width.Word) : l.words owner ≠ [] :=
  List.append_ne_nil_of_right_ne_nil _ (List.cons_ne_nil _ _)

/-- The words of tables of one class that follow each other. -/
def groupWords (owner : width.Word) (layouts : List (TableLayout width)) : List width.Word :=
  layouts.flatMap (·.words owner)

end TableLayout

namespace Context

variable (ctx : Context)

/-- The slot that holds the word `w`. -/
def slotOf (w : ctx.image.width.Word) : Slot :=
  if ctx.roots.pureAddress = some (w.toNat : Int) then { address := some w.toNat, isPure := true }
  else { address := some w.toNat, function := ctx.image.functionAt? w.toNat }

/-- The sub-table of the class `owner` that a layout describes, written at `start`. -/
def tableOf (owner : TypeInfo) (start : Int) (l : TableLayout ctx.image.width) : SubTable where
  start := start
  header := start + ctx.image.ptr * l.vcallOffsets.length
  addressPoint := start + ctx.image.ptr * l.vcallOffsets.length + 2 * ctx.image.ptr
  vcallOffsets := l.vcallOffsets.map (·.toInt)
  entries := .offsetToTop l.offsetToTop.toInt :: .typeInfo owner.address ::
    (l.slots.map ctx.slotOf).map .slot

/-- The sub-tables that the layouts describe, written one after the other from `start` on. -/
def tablesOf (owner : TypeInfo) : Int → List (TableLayout ctx.image.width) → List SubTable
  | _, [] => []
  | start, l :: rest =>
    tableOf ctx owner start l :: tablesOf owner (start + ctx.image.ptr * l.size) rest

variable {ctx} {owner : TypeInfo} {start : Int} {l : TableLayout ctx.image.width}

@[simp] theorem slots_tableOf : (ctx.tableOf owner start l).slots = l.slots.map ctx.slotOf := by
  show ((l.slots.map ctx.slotOf).map Entry.slot).filterMap _ = _
  rw [List.filterMap_map]
  exact List.filterMap_some

/-- A table ends after its words. -/
theorem stop_tableOf :
    (ctx.tableOf owner start l).stop ctx.image.ptr = start + ctx.image.ptr * l.size := by
  rw [SubTable.stop, slots_tableOf, List.length_map, l.mul_size]
  show start + ctx.image.ptr * l.vcallOffsets.length + 2 * ctx.image.ptr + _ = _
  omega

/-- The last table ends after the words of all tables. -/
theorem getLast?_tablesOf (word : ctx.image.width.Word)
    {layouts : List (TableLayout ctx.image.width)} (nonempty : layouts ≠ []) :
    ∃ last, (ctx.tablesOf owner start layouts).getLast? = some last ∧
      last.stop ctx.image.ptr =
        start + ctx.image.ptr * (TableLayout.groupWords word layouts).length := by
  induction layouts generalizing start with
  | nil => exact absurd rfl nonempty
  | cons l rest ih =>
    rw [TableLayout.groupWords, List.flatMap_cons, List.length_append, l.length_words,
      Int.natCast_add, Int.mul_add, ← Int.add_assoc]
    -- The last table ends the words, and those before it only move the start.
    cases rest with
    | nil =>
      refine ⟨ctx.tableOf owner start l, rfl, ?_⟩
      rw [stop_tableOf, List.flatMap_nil, add_mul_length_nil]
    | cons next rest =>
      obtain ⟨last, is, stop⟩ := ih (List.cons_ne_nil next rest)
      exact ⟨last, is, stop⟩

end Context

namespace Image

variable {img : Image} {b : Block} {address : Int} {first : Bool} {l : TableLayout img.width}
  {owner : img.width.Word} {rest : List img.width.Word}

/-- The slots of a table follow two words after its offset words. -/
theorem HoldsRun.slots (run : img.HoldsRun b first address (l.words owner ++ rest)) :
    img.HoldsRun b false (address + img.ptr * l.vcallOffsets.length + 2 * img.ptr)
      (l.slots ++ rest) := by
  have split : l.words owner ++ rest =
      (l.vcallOffsets ++ [l.offsetToTop, owner]) ++ (l.slots ++ rest) := by
    rw [TableLayout.words, List.append_assoc, List.append_assoc]
    rfl
  have place : address + img.ptr * l.vcallOffsets.length + 2 * img.ptr =
      address + img.ptr * ((l.vcallOffsets ++ [l.offsetToTop, owner]).length : Int) := by
    rw [List.length_append, Int.natCast_add, Int.mul_add, Int.add_assoc, Int.mul_comm 2]
    rfl
  rw [split] at run
  rw [place]
  exact run.drop (List.append_ne_nil_of_right_ne_nil _ (List.cons_ne_nil _ _))

/-- The next table follows after the words of a table. -/
theorem HoldsRun.next (run : img.HoldsRun b first address (l.words owner ++ rest)) :
    img.HoldsRun b false (address + img.ptr * l.size) rest := by
  rw [← l.length_words owner]
  exact run.drop (l.words_ne_nil owner)

end Image

end ItaniumRtti
