import ItaniumRtti.Proofs.Vtable.Tiling

namespace ItaniumRtti

/-!
# Lookup of tables by address

Which table an address belongs to is found by a walk over the tables, which compares the address
with the first slot of each table and with the start of the next one.  In a tiling the next table
starts where the slots end, so the walk stops at the table whose slots hold the address.  A table
without slots counts as one byte long: this byte belongs to the words before the first slot of the
next table, or lies past the vtable.

* `SubTable.Holds` — an address in the slots of a table, or its first slot if there is none;
* `SubTable.Tiles.indexCovering?_eq_some_iff` — the walk stops at the table that holds the address;
* `Vtable.Tiled.eq_stop_of_holds` — what a table can hold outside the vtable;
* `Session.table_lookup_exact` — so lookup undoes the tiling of every vtable that is read.
-/

namespace SubTable

/-- `address` lies in a slot of the table, or at its first slot. -/
def Holds (ptr : Int) (table : SubTable) (address : Int) : Prop :=
  table.addressPoint ≤ address ∧ address < max (table.stop ptr) (table.addressPoint + 1)

variable {ptr address : Int} {table : SubTable}

/-- A table does not end before its first slot. -/
theorem addressPoint_le_stop (positive : 0 < ptr) (table : SubTable) :
    table.addressPoint ≤ table.stop ptr := by
  have nonneg : 0 ≤ ptr * (table.slots.length : Int) :=
    Int.mul_nonneg positive.le (Int.natCast_nonneg _)
  rw [SubTable.stop]
  omega

/-- The first slot belongs to the table, whether there is one or not. -/
theorem holds_addressPoint (ptr : Int) (table : SubTable) : table.Holds ptr table.addressPoint :=
  ⟨le_rfl, by omega⟩

/-- So do the addresses in the words of its slots. -/
theorem holds_of_slot (positive : 0 < ptr) {j : Nat} (slot : j < table.slots.length)
    (lower : table.addressPoint + ptr * j ≤ address)
    (upper : address < table.addressPoint + ptr * j + ptr) : table.Holds ptr address := by
  have nonneg : 0 ≤ ptr * (j : Int) := Int.mul_nonneg positive.le (Int.natCast_nonneg j)
  have fits : ptr * ((j + 1 : Nat) : Int) ≤ ptr * (table.slots.length : Int) :=
    Int.mul_le_mul_of_nonneg_left (Int.ofNat_le.mpr slot) positive.le
  rw [Int.natCast_succ, Int.mul_add, Int.mul_one] at fits
  refine ⟨by omega, ?_⟩
  rw [SubTable.stop]
  omega

/-! ### The walk -/

namespace Tiles

variable {ctx : Context} {owner : TypeInfo} {start stop : Int} {front rest tables : List SubTable}

/-- The walk takes the start of the next table for the end of a table, and the vtable's end for that
    of the last one. -/
theorem next_eq (tiles : Tiles ptr start tables stop) :
    (tables.head?.map (·.start)).getD stop = start := by
  cases tables with
  | nil => exact Eq.symm tiles
  | cons table rest => exact tiles.1

/-- What is left of a tiling from a table on. -/
theorem drop (tiles : Tiles ctx.image.ptr start (front ++ table :: rest) stop)
    (regular : ∀ table ∈ front, table.Regular ctx owner) :
    start ≤ table.start ∧ Tiles ctx.image.ptr (table.stop ctx.image.ptr) rest stop := by
  induction front generalizing start with
  | nil => exact ⟨tiles.1.ge, tiles.2⟩
  | cons first front ih =>
    obtain ⟨rfl, follow⟩ := tiles
    obtain ⟨here, others⟩ := List.forall_mem_cons.mp regular
    obtain ⟨later, left⟩ := ih follow others
    have slots := addressPoint_le_stop ctx.image.ptr_pos first
    have before := here.start_lt
    rw [SubTable.stop] at slots
    exact ⟨by omega, left⟩

/-- **The walk stops at the table that holds the address.** -/
theorem indexCovering?_eq_some_iff (tiles : Tiles ctx.image.ptr start tables stop)
    (regular : ∀ table ∈ tables, table.Regular ctx owner) {first i : Nat} :
    Vtable.indexCovering? stop address tables first = some i ↔
      ∃ front table rest, tables = front ++ table :: rest ∧ i = first + front.length ∧
        table.Holds ctx.image.ptr address := by
  induction tables generalizing start first with
  | nil =>
    simp only [Vtable.indexCovering?, reduceCtorEq, false_iff]
    rintro ⟨front, table, rest, split, -⟩
    exact List.append_ne_nil_of_right_ne_nil front (List.cons_ne_nil table rest) split.symm
  | cons table rest ih =>
    obtain ⟨-, others⟩ := List.forall_mem_cons.mp regular
    have next : (rest.head?.map (·.start)).getD stop = table.stop ctx.image.ptr := tiles.2.next_eq
    simp only [Vtable.indexCovering?, next, Bool.and_eq_true, decide_eq_true_eq]
    split
    · next holds =>
      rw [Option.some.injEq]
      constructor
      · rintro rfl
        exact ⟨[], table, rest, rfl, rfl, holds⟩
      · rintro ⟨front, found, after, split, rfl, later, -⟩
        cases front with
        | nil => rfl
        | cons _ front =>
          -- a later table has its first slot after a header, which the address does not reach
          obtain ⟨rfl, rfl⟩ := List.cons.inj split
          obtain ⟨starts, -⟩ := Tiles.drop tiles.2 fun t member =>
            others t (List.mem_append_left _ member)
          have header := (others found (List.mem_append_right _ (List.mem_cons_self ..))).start_lt
          have slots := addressPoint_le_stop ctx.image.ptr_pos table
          have past := holds.2
          rw [SubTable.stop] at past slots
          omega
    · next passes =>
      rw [ih tiles.2 others]
      constructor
      · rintro ⟨front, found, after, rfl, rfl, holds⟩
        exact ⟨table :: front, found, after, rfl, by rw [List.length_cons]; omega, holds⟩
      · rintro ⟨front, found, after, split, rfl, holds⟩
        cases front with
        | nil =>
          obtain ⟨rfl, -⟩ := List.cons.inj split
          exact absurd holds passes
        | cons _ front =>
          obtain ⟨rfl, rfl⟩ := List.cons.inj split
          exact ⟨front, found, after, rfl, by rw [List.length_cons]; omega, holds⟩

end Tiles

end SubTable

/-! ### Vtables that are read -/

namespace Vtable

variable {ctx : Context} {known : Knowledge} {t : TypeInfo} {address place : Int} {v : Vtable}
  {front rest : List SubTable} {table : SubTable} {i : Nat}

/-- The table that is found for an address is the one that holds it. -/
theorem Tiled.tableContaining?_eq_some_iff (tiled : v.Tiled ctx known t address) :
    v.tableContaining? place = some i ↔
      ∃ front table rest, v.tables = front ++ table :: rest ∧ i = front.length ∧
        table.Holds ctx.image.ptr place := by
  rw [tableContaining?, tiled.tiles.indexCovering?_eq_some_iff tiled.regular]
  simp only [Nat.zero_add]

/-- The vtable reaches from its address to its end. -/
theorem Tiled.contains_iff (tiled : v.Tiled ctx known t address) :
    v.contains place = true ↔ address ≤ place ∧ place < v.stop := by
  have valid : v.isValid = true := by
    rw [isValid, List.isEmpty_eq_false_iff.mpr tiled.nonempty]
    rfl
  rw [contains, valid, tiled.starts, Bool.true_and, Bool.and_eq_true, decide_eq_true_eq,
    decide_eq_true_eq]

/-- The only address outside the vtable that belongs to a table is the first slot of the last table,
    if that has no slots. -/
theorem Tiled.eq_stop_of_holds (tiled : v.Tiled ctx known t address)
    (split : v.tables = front ++ table :: rest) (holds : table.Holds ctx.image.ptr place)
    (outside : v.contains place = false) :
    rest = [] ∧ table.slots = [] ∧ place = table.addressPoint ∧ place = v.stop := by
  have tiles := tiled.tiles
  have regular := tiled.regular
  rw [split] at tiles regular
  have header := (regular table (List.mem_append_right _ (List.mem_cons_self ..))).start_lt
  obtain ⟨starts, left⟩ := tiles.drop fun t member => regular t (List.mem_append_left _ member)
  obtain ⟨fits, more⟩ := left.le fun t member =>
    regular t (List.mem_append_right _ (List.mem_cons_of_mem _ member))
  have slots := SubTable.addressPoint_le_stop ctx.image.ptr_pos table
  obtain ⟨lower, upper⟩ := holds
  -- the address comes after the start, so it is the end that it does not stay before
  have past : v.stop ≤ place := by
    rw [← Bool.not_eq_true, tiled.contains_iff] at outside
    omega
  have last : rest = [] := by
    by_contra others
    have := more others
    omega
  have none : ctx.image.ptr * (table.slots.length : Int) = 0 := by
    rw [SubTable.stop] at fits upper slots
    omega
  refine ⟨last, ?_, by omega, by omega⟩
  rw [← List.length_eq_zero_iff, ← Int.natCast_eq_zero]
  exact (Int.mul_eq_zero.mp none).resolve_left ctx.image.ptr_pos.ne'

end Vtable

namespace Session

/-- **Lookup by address undoes the tiling.**  In every vtable that is read, the first slot of a
    table belongs to it, with or without slots, and so does every address in the words of its slots.
    An address outside the vtable belongs to a table only if it is the end of the vtable and the
    first slot of a last table without slots. -/
theorem table_lookup_exact (image : Image) (demangle : Demangler) (limits : Limits)
    (detector : Detector) (listing : Listing) (queries : List Query) (t : TypeInfo) (address : Int)
    (v : Vtable) (after : Knowledge) :
    let s := (start image demangle limits detector listing).after queries
    let ctx := s.context
    ctx.Identified t → t.vtableAt? ctx address s.known = .ok (some v) after →
    (∀ front table rest, v.tables = front ++ table :: rest →
      v.tableContaining? table.addressPoint = some front.length ∧
      ∀ (j : Nat) (place : Int), j < table.slots.length →
        table.addressPoint + ctx.image.ptr * j ≤ place →
        place < table.addressPoint + ctx.image.ptr * j + ctx.image.ptr →
        v.tableContaining? place = some front.length) ∧
    ∀ place i, v.tableContaining? place = some i → v.contains place = false →
      place = v.stop ∧ ∃ front last, v.tables = front ++ [last] ∧ i = front.length ∧
        last.slots = [] ∧ place = last.addressPoint := by
  intro s ctx identified read
  obtain ⟨g, parsed⟩ := parsed_of_vtableAt? rfl identified read
  -- The tables leave no gaps, so the first one that is not passed is the one that holds the
  -- address.
  have tiled := parsed.tiled
  refine ⟨fun front table rest split => ⟨?_, fun j place small lower upper => ?_⟩,
    fun place i found outside => ?_⟩
  · exact tiled.tableContaining?_eq_some_iff.mpr
      ⟨front, table, rest, split, rfl, table.holds_addressPoint _⟩
  · exact tiled.tableContaining?_eq_some_iff.mpr
      ⟨front, table, rest, split, rfl, SubTable.holds_of_slot ctx.image.ptr_pos small lower upper⟩
  · obtain ⟨front, last, rest, split, rfl, holds⟩ := tiled.tableContaining?_eq_some_iff.mp found
    obtain ⟨rfl, bare, here, ends⟩ := tiled.eq_stop_of_holds split holds outside
    exact ⟨ends, front, last, split, rfl, bare, here⟩

end Session

/-- The program with a class that has one base twice, cut before the last slot of the vtable. -/
def Image.sampleBare : Image :=
  { Image.sampleRepeated with
    blocks := [{ Block.sampleRepeated with size := 144 }, .sampleCode]
    ordered := by decide }

/-- The vtable of that class, whose last table is without slots. -/
def Vtable.sampleBare : Vtable :=
  { Vtable.sampleRepeated with
    tables := Vtable.sampleRepeated.tables.take 3 ++
      [{ start := 0x400088, header := 0x400088, addressPoint := 0x400090, base := some 0x400008,
         entries := [.offsetToTop (-12), .typeInfo 0x400028] }]
    stop := 0x400090 }

namespace Session

/-- A session about that program. -/
def sampleBare : Session :=
  start .sampleBare sampleRepeated.context.demangle {} (.ofTable []) []

/-- The end of the vtable belongs to the table without slots, though it lies outside. -/
theorem table_lookup_exact_sampleBare : ∃ after,
    TypeInfo.vtableAt? sampleBare.context ⟨0x400028, .general⟩ 0x400050 sampleBare.known =
      .ok (some .sampleBare) after ∧
    Vtable.sampleBare.tableContaining? 0x400090 = some 3 ∧
    Vtable.sampleBare.contains 0x400090 = false := by
  have identified : sampleBare.context.Identified ⟨0x400028, .general⟩ := by
    unfold Context.Identified
    decide +kernel
  obtain ⟨after, read⟩ : ∃ after,
      TypeInfo.vtableAt? sampleBare.context ⟨0x400028, .general⟩ 0x400050 sampleBare.known =
        .ok (some .sampleBare) after := by
    rw [← Recover.run'_eq_some_iff]
    decide +kernel
  have lookup := table_lookup_exact .sampleBare _ {} (.ofTable []) [] [] _ _ _ after identified read
  exact ⟨after, read, (lookup.1 (Vtable.sampleRepeated.tables.take 3) _ [] rfl).1, by decide⟩

end Session

end ItaniumRtti
