import ItaniumRtti.Proofs.Vtable.Bases

namespace ItaniumRtti

/-!
# Vtables as tilings

The tables of a vtable fill the words from its address to its end without gaps, whatever the program
holds there.

* `SubTable.Tiles` — tables that fill the words between two addresses;
* `SubTable.Regular` — how a table is laid out;
* `SubTable.Tiles.le` — tables take up room;
* `Vtable.Tiled` — a vtable of regular tables without gaps;
* `Session.vtable_tiled` — every vtable that is read is such a vtable.
-/

/-! ### Words -/

namespace Image

variable (img : Image) (address : Int)

theorem nthWord_add (i j : Nat) :
    address + img.ptr * ((i + j : Nat) : Int) = address + img.ptr * i + img.ptr * j := by
  rw [Int.natCast_add, Int.mul_add, Int.add_assoc]

theorem nthWord_lt_iff {i j : Nat} : address + img.ptr * i < address + img.ptr * j ↔ i < j := by
  rw [Int.add_lt_add_iff_left, Int.mul_lt_mul_left img.ptr_pos, Int.ofNat_lt]

end Image

/-- What does not exceed a whole bound is at most the bound. -/
theorem Bound.le_of_exceededBy_eq {n most : Int}
    (small : (Bound.whole most).exceededBy n = .ok false) : n ≤ most := by
  have not : decide (most < n) = false := Except.ok.inj small
  rw [decide_eq_false_iff_not] at not
  exact Int.not_lt.mp not

/-- A bound that is given as a whole number is one. -/
theorem Bound.eq_whole_of_asWhole {bound : Bound} {most : Int} (whole : bound.asWhole = .ok most) :
    bound = .whole most := by
  cases bound with
  | whole n => rw [Except.ok.inj whole]
  | real x => cases whole
  | unfit => cases whole

/-! ### Layout -/

namespace SubTable

/-- The tables fill the words from `start` to `stop`: each starts where the slots of the one before
    end. -/
def Tiles (ptr : Int) : Int → List SubTable → Int → Prop
  | start, [], stop => start = stop
  | start, table :: rest, stop =>
    table.start = start ∧ Tiles ptr (table.addressPoint + ptr * table.slots.length) rest stop

/-- How a table of the class `owner` is laid out. -/
structure Regular (ctx : Context) (owner : TypeInfo) (table : SubTable) : Prop where
  /-- The header follows the offset words. -/
  header : table.header = table.start + ctx.image.ptr * table.vcallOffsets.length
  /-- The slots follow the header. -/
  point : table.addressPoint = table.header + 2 * ctx.image.ptr
  /-- The header is an offset to the top and a pointer to the owner, and all else are slots. -/
  entries : table.entries =
    .offsetToTop table.offsetToTop :: .typeInfo owner.address :: table.slots.map .slot
  /-- There are not too many offset words. -/
  few : ∃ most, ctx.limits.maxVcallOffsets = .whole most ∧ table.vcallOffsets.length ≤ most
  /-- The offsets are what the words up to the header hold. -/
  words : ∀ (i : Nat) value, (table.vcallOffsets ++ [table.offsetToTop])[i]? = some value →
    ctx.image.readInt (table.start + ctx.image.ptr * i) ctx.image.ptr true = .ok (some value)
  /-- None of them is too large. -/
  small : ∀ value ∈ table.vcallOffsets ++ [table.offsetToTop],
    ctx.limits.maxOffsetToTop.exceededBy value.natAbs = .ok false ∧
    ∀ most, ctx.limits.maxOffsetToTop = .whole most → (value.natAbs : Int) ≤ most

variable {ctx : Context} {owner : TypeInfo} {start stop : Int} {table : SubTable}
  {tables : List SubTable}

/-- The first slot comes after the start. -/
theorem Regular.start_lt (regular : table.Regular ctx owner) :
    table.start < table.addressPoint := by
  have pos := ctx.image.ptr_pos
  have nonneg := Int.mul_nonneg (Int.le_of_lt pos) (Int.natCast_nonneg table.vcallOffsets.length)
  rw [regular.point, regular.header]
  omega

/-- Tables that fill the words between two addresses take up room. -/
theorem Tiles.le (tiles : Tiles ctx.image.ptr start tables stop)
    (regular : ∀ table ∈ tables, table.Regular ctx owner) :
    start ≤ stop ∧ (tables ≠ [] → start < stop) := by
  induction tables generalizing start with
  | nil => exact ⟨Int.le_of_eq tiles, fun some => absurd rfl some⟩
  | cons table rest ih =>
    obtain ⟨rfl, follow⟩ := tiles
    obtain ⟨first, others⟩ := List.forall_mem_cons.mp regular
    obtain ⟨later, -⟩ := ih follow others
    have before := first.start_lt
    have nonneg := Int.mul_nonneg (Int.le_of_lt ctx.image.ptr_pos)
      (Int.natCast_nonneg table.slots.length)
    exact ⟨by omega, fun _ => by omega⟩

end SubTable

/-- The vtable `v` of the class `t` is made of regular tables from `address` on, without gaps. -/
structure Vtable.Tiled (ctx : Context) (known : Knowledge) (t : TypeInfo) (address : Int)
    (v : Vtable) : Prop where
  /-- It is a vtable of the class. -/
  owned : v.typeInfo = t.address
  /-- It starts at the address. -/
  starts : v.address = address
  /-- It has a table. -/
  nonempty : v.tables ≠ []
  /-- There is at most one table for each ancestor besides the first. -/
  count : ∃ ancestors, t.ancestors ctx known = .ok ancestors known ∧
    v.tables.length ≤ 1 + ancestors.length
  /-- There is only one, unless the class or an ancestor describes its bases in the general way. -/
  single : v.tables.length = 1 ∨ ctx.Branches known t
  /-- There are no gaps between the tables. -/
  tiles : SubTable.Tiles ctx.image.ptr address v.tables v.stop
  /-- It ends in its block. -/
  inside : ∃ block, ctx.image.blockAt? address = some block ∧ v.stop ≤ block.stop
  /-- Each table is laid out in the same way. -/
  regular : ∀ table ∈ v.tables, table.Regular ctx t
  /-- Secondary tables are not at the top of the object. -/
  nonzero : ∀ table ∈ v.tables.tail, table.offsetToTop ≠ 0
  /-- Symbols inside stand at the pointer to the class or at the first slot of a table. -/
  symbols : ∀ i : Nat, 0 < i → address + ctx.image.ptr * i < v.stop →
    ctx.image.hasSymbolAt (address + ctx.image.ptr * i) = true →
    ∃ table ∈ v.tables, address + ctx.image.ptr * i = table.header + ctx.image.ptr ∨
      address + ctx.image.ptr * i = table.addressPoint
  /-- The first table serves no base. -/
  primary : ∀ table ∈ v.tables.head?, table.base = none
  /-- No two tables serve one base. -/
  distinct : (v.tables.filterMap (·.base)).Nodup

/-! ### Tables that are read -/

namespace Group

variable {ctx : Context} {g : Group} {known : Knowledge} {secondary : Bool} {address stop : Int}
  {table : SubTable} {tables : List SubTable}

namespace TableAt

theorem header_eq (stands : g.TableAt ctx known secondary address table) :
    table.header = address + ctx.image.ptr * table.vcallOffsets.length :=
  stands.heads.address_eq

/-- The slots follow the offset words and the two words of the header. -/
theorem addressPoint_eq (stands : g.TableAt ctx known secondary address table) :
    table.addressPoint =
      address + ctx.image.ptr * ((table.vcallOffsets.length + 2 : Nat) : Int) := by
  rw [stands.point, stands.header_eq, ctx.image.nthWord_add]
  show _ = _ + ctx.image.ptr * 2
  rw [Int.mul_comm 2]

/-- The words of a table, counted: offsets, header and slots. -/
theorem stop_eq (stands : g.TableAt ctx known secondary address table) :
    table.stop ctx.image.ptr = address +
      ctx.image.ptr * ((table.vcallOffsets.length + 2 + table.slots.length : Nat) : Int) := by
  rw [SubTable.stop, stands.addressPoint_eq, ctx.image.nthWord_add _ (_ + 2)]

/-- The table lies in the block: its last word is a slot, or the pointer to the owner. -/
theorem stop_le (stands : g.TableAt ctx known secondary address table) :
    table.stop ctx.image.ptr ≤ g.block.stop := by
  unfold SubTable.stop
  cases count : table.slots.length with
  | zero =>
    have last : table.header + ctx.image.ptr + ctx.image.ptr ≤ g.block.stop :=
      ((g.block.contains_iff _ _).mp stands.heads.header.refers.1).2
    rw [ctx.image.nthWord_zero, stands.point]
    omega
  | succ i =>
    obtain ⟨last, -⟩ := stands.run.word (i := i) (by omega)
    rw [g.block.contains_iff] at last
    rw [ctx.image.nthWord_succ]
    omega

/-- A table that stands somewhere is laid out regularly. -/
theorem regular (stands : g.TableAt ctx known secondary address table) :
    table.Regular ctx g.owner where
  header := stands.start ▸ stands.header_eq
  point := stands.point
  entries := stands.entries
  few := by
    obtain ⟨most, whole, few⟩ := stands.few
    exact ⟨most, Bound.eq_whole_of_asWhole whole, few⟩
  words := fun i value listed => stands.start ▸ (stands.heads.offsetWord listed).stored
  small := by
    intro value member
    obtain ⟨i, listed⟩ := List.getElem?_of_mem member
    have small := (stands.heads.offsetWord listed).small
    exact ⟨small, fun most whole => Bound.le_of_exceededBy_eq (whole ▸ small)⟩

/-- Inside a table, symbols stand only at the pointer to the owner and at the first slot. -/
theorem symbol (stands : g.TableAt ctx known secondary address table) {i : Nat} (after : 0 < i)
    (before : address + ctx.image.ptr * i < table.stop ctx.image.ptr)
    (symbol : ctx.image.hasSymbolAt (address + ctx.image.ptr * i) = true) :
    address + ctx.image.ptr * i = table.header + ctx.image.ptr ∨
      address + ctx.image.ptr * i = table.addressPoint := by
  rw [stands.stop_eq, ctx.image.nthWord_lt_iff] at before
  -- a header is not looked for past a symbol, so none stands up to the offset to the top
  by_cases offsets : i ≤ table.vcallOffsets.length
  · cases symbol.symm.trans (stands.heads.hasSymbolAt after offsets)
  obtain ⟨j, rfl⟩ : ∃ j, i = table.vcallOffsets.length + 1 + j :=
    ⟨i - (table.vcallOffsets.length + 1), by omega⟩
  cases j with
  | zero =>
    left
    rw [stands.header_eq, ctx.image.nthWord_succ]
    omega
  | succ j =>
    right
    have place : address + ctx.image.ptr *
        ((table.vcallOffsets.length + 1 + (j + 1) : Nat) : Int) =
        table.addressPoint + ctx.image.ptr * j := by
      rw [stands.addressPoint_eq, ← ctx.image.nthWord_add]
      congr 3
      omega
    rw [place] at symbol ⊢
    cases j with
    | zero => exact ctx.image.nthWord_zero _
    | succ j =>
      -- nor does one after the first slot, where it would end the run
      obtain ⟨-, clear⟩ := stands.run.word (i := j + 1) (by omega)
      cases symbol.symm.trans (clear (Nat.succ_pos j))

end TableAt

namespace Tables

/-- Tables that follow each other leave no gaps. -/
theorem tiles (follow : g.Tables ctx known secondary address tables stop) :
    SubTable.Tiles ctx.image.ptr address tables stop := by
  induction follow with
  | done => rfl
  | table clear stands follow ih => exact ⟨stands.start, ih⟩

/-- They end in the block. -/
theorem stop_le (follow : g.Tables ctx known secondary address tables stop) (some : tables ≠ []) :
    stop ≤ g.block.stop := by
  obtain ⟨later, start, -, stands⟩ := follow.tableAt (List.getLast_mem some)
  rw [follow.stop_eq (List.getLast?_eq_some_getLast some)]
  exact stands.stop_le

/-- All of them are laid out regularly. -/
theorem regular (follow : g.Tables ctx known secondary address tables stop) :
    ∀ table ∈ tables, table.Regular ctx g.owner := by
  intro table member
  obtain ⟨later, start, -, stands⟩ := follow.tableAt member
  exact stands.regular

/-- Symbols stand only at pointers to the owner and at first slots of tables, though one may stand
    at the start of the first table. -/
theorem symbol (follow : g.Tables ctx known secondary address tables stop) {i : Nat}
    (after : secondary = true ∨ 0 < i) (before : address + ctx.image.ptr * i < stop)
    (symbol : ctx.image.hasSymbolAt (address + ctx.image.ptr * i) = true) :
    ∃ table ∈ tables, address + ctx.image.ptr * i = table.header + ctx.image.ptr ∨
      address + ctx.image.ptr * i = table.addressPoint := by
  induction follow generalizing i with
  | @done secondary address =>
    have nonneg := Int.mul_nonneg (Int.le_of_lt ctx.image.ptr_pos) (Int.natCast_nonneg i)
    omega
  | @table secondary address stop table rest clear stands follow ih =>
    by_cases first : i = 0
    · subst first
      rw [ctx.image.nthWord_zero] at symbol
      cases symbol.symm.trans (clear (after.resolve_right (Nat.lt_irrefl 0)))
    by_cases within : address + ctx.image.ptr * i < table.stop ctx.image.ptr
    · exact ⟨table, List.mem_cons_self .., stands.symbol (Nat.pos_of_ne_zero first) within symbol⟩
    -- the word lies in a later table
    rw [stands.stop_eq, ctx.image.nthWord_lt_iff, Nat.not_lt] at within
    obtain ⟨j, rfl⟩ := Nat.exists_eq_add_of_le within
    rw [ctx.image.nthWord_add _ (_ + _), ← stands.stop_eq] at before symbol ⊢
    obtain ⟨later, member, place⟩ := ih (.inl rfl) before symbol
    exact ⟨later, List.mem_cons_of_mem _ member, place⟩

end Tables

end Group

/-! ### Vtables that are read -/

namespace TypeInfo

variable {ctx : Context} {t : TypeInfo} {known : Knowledge} {address : Int} {g : Group} {v : Vtable}

/-- No two tables serve one base. -/
theorem Parsed.distinct (parsed : t.Parsed ctx known address g v) :
    (v.tables.filterMap (·.base)).Nodup := by
  -- The first table serves no base, and to the others no base is attached twice.
  have others : (v.tables.tail.filterMap (·.base)).Nodup := by
    rcases parsed.attached with none | ⟨placed, virtuals, bare, -, -, same⟩
    · rw [none]
      exact List.nodup_nil
    · rw [same]
      exact (nodup_attachBases _ _ [] bare).1
  cases split : v.tables with
  | nil => exact List.nodup_nil
  | cons first rest =>
    have none : first.base = none := parsed.primary first (by rw [split]; rfl)
    rw [split] at others
    rw [List.filterMap_cons_none none]
    exact others

/-- A vtable that is read is a tiling. -/
theorem Parsed.tiled (parsed : t.Parsed ctx known address g v) :
    v.Tiled ctx known t address where
  owned := parsed.owned
  starts := parsed.starts
  nonempty := parsed.nonempty
  count := parsed.count
  single := by
    cases searched : g.secondaries with
    | true => exact .inr (parsed.secondaries.mp searched)
    | false => exact .inl (parsed.single searched)
  tiles := parsed.follow.tiles
  inside := ⟨g.block, parsed.block, parsed.follow.stop_le parsed.nonempty⟩
  regular := parsed.owner ▸ parsed.follow.regular
  nonzero := fun _ member => parsed.follow.offsetToTop_ne_zero member
  symbols := fun _ after before symbol => parsed.follow.symbol (.inr after) before symbol
  primary := parsed.primary
  distinct := parsed.distinct

end TypeInfo

namespace Session

/-- **Every vtable that is read is a tiling.**  Its tables are regular and follow each other without
    gaps from the given address to its end, which lies in the block; symbols inside stand only at
    pointers to the class and at first slots, and no two tables serve one base. -/
theorem vtable_tiled (image : Image) (demangle : Demangler) (limits : Limits) (detector : Detector)
    (listing : Listing) (queries : List Query) (t : TypeInfo) (address : Int) (v : Vtable)
    (after : Knowledge) :
    let s := (start image demangle limits detector listing).after queries
    let ctx := s.context
    ctx.Identified t → t.vtableAt? ctx address s.known = .ok (some v) after →
    v.Tiled ctx after t address := by
  intro s ctx identified read
  obtain ⟨g, parsed⟩ := parsed_of_vtableAt? rfl identified read
  exact parsed.tiled

/-- The vtable with four tables is a tiling, with two offset words before the third header. -/
theorem vtable_tiled_sampleRepeated : ∃ after,
    TypeInfo.vtableAt? sampleRepeated.context ⟨0x400028, .general⟩ 0x400050 sampleRepeated.known =
      .ok (some .sampleRepeated) after ∧
    Vtable.sampleRepeated.Tiled sampleRepeated.context after ⟨0x400028, .general⟩ 0x400050 := by
  obtain ⟨after, read⟩ := vtableAt?_sampleRepeated
  exact ⟨after, read, vtable_tiled .sampleRepeated _ {} (.ofTable []) [] [] _ _ _ after
    identified_sampleRepeated read⟩

end Session

end ItaniumRtti
