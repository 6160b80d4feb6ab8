import ItaniumRtti.Proofs.Vtable.SlotRun

namespace ItaniumRtti

/-!
# Groups that are read

* `Group.TableAt` — a sub-table that stands at an address;
* `Group.Tables` — sub-tables that follow each other;
* `Group.tablesFrom_settles` — the sub-tables that are read follow each other;
* `TypeInfo.Parsed` — all that is known of the vtable of a class that is read at an address;
* `TypeInfo.vtableAt?_settles` — the vtables that are read are such vtables;
* `Session.slot_runs` — so their runs of slots are sound and go as far as they can.
-/

open Recover

/-! ### Tables -/

namespace Group

variable (ctx : Context) (g : Group)

/-- The sub-table `table` stands at `address`, whichever base it serves. -/
structure TableAt (known : Knowledge) (secondary : Bool) (address : Int) (table : SubTable) :
    Prop where
  /-- It starts there. -/
  start : table.start = address
  /-- Its header is the next one. -/
  heads : g.Heads ctx known secondary true address
    ⟨table.header, table.offsetToTop, table.vcallOffsets⟩
  /-- There are not too many offset words before the header. -/
  few : ∃ most, ctx.limits.maxVcallOffsets.asWhole = .ok most ∧ table.vcallOffsets.length ≤ most
  /-- The slots follow the header. -/
  point : table.addressPoint = table.header + 2 * ctx.image.ptr
  /-- Its words are those of the header and the slots. -/
  entries : table.entries =
    .offsetToTop table.offsetToTop :: .typeInfo g.owner.address :: table.slots.map .slot
  /-- The slots are a run that goes as far as it can. -/
  run : g.SlotRun ctx known none table.addressPoint table.slots

/-- The sub-tables follow each other from one address to another, and no symbol stands at the start
    of a secondary one. -/
inductive Tables (known : Knowledge) : Bool → Int → List SubTable → Int → Prop where
  /-- There are no more tables. -/
  | done {secondary : Bool} {address : Int} : Tables known secondary address [] address
  /-- Another table. -/
  | table {secondary : Bool} {address stop : Int} {table : SubTable} {rest : List SubTable} :
      (secondary = true → ctx.image.hasSymbolAt address = false) →
      g.TableAt ctx known secondary address table →
      Tables known true (table.stop ctx.image.ptr) rest stop →
      Tables known secondary address (table :: rest) stop

/-- At most `count` sub-tables follow each other, and no bases are attached to them yet. -/
structure ReadTables (known : Knowledge) (secondary : Bool) (address : Int) (count : Nat)
    (tables : List SubTable) : Prop where
  /-- They follow each other. -/
  follow : ∃ stop, g.Tables ctx known secondary address tables stop
  /-- There are not too many. -/
  length : tables.length ≤ count
  /-- Nothing says yet what they serve. -/
  bare : ∀ table ∈ tables, table.base = none

variable {ctx g} {known : Knowledge} {secondary : Bool} {address stop : Int} {table : SubTable}
  {tables : List SubTable}

/-- The slots of a table are found again among its entries. -/
theorem slots_ofHeader (ptr : Int) (owner : TypeInfo) (start : Int) (h : Header)
    (slots : List Slot) : (SubTable.ofHeader ptr owner start h slots).slots = slots := by
  unfold SubTable.slots SubTable.ofHeader
  rw [List.filterMap_cons_none rfl, List.filterMap_cons_none rfl, List.filterMap_map]
  exact List.filterMap_some

/-- The table that is put together from a header and its slots. -/
theorem tableAt_ofHeader {h : Header} {slots : List Slot} {most : Int}
    (heads : g.Heads ctx known secondary true address h)
    (limit : ctx.limits.maxVcallOffsets.asWhole = .ok most) (few : h.vcallOffsets.length ≤ most)
    (run : g.SlotRun ctx known none (h.address + 2 * ctx.image.ptr) slots) :
    g.TableAt ctx known secondary address
      (SubTable.ofHeader ctx.image.ptr g.owner address h slots) where
  start := rfl
  heads := heads
  few := ⟨most, limit, few⟩
  point := rfl
  entries := by
    rw [slots_ofHeader]
    rfl
  run := by
    rw [slots_ofHeader]
    exact run

/-- A base may be attached to a table. -/
theorem TableAt.withBase (stands : g.TableAt ctx known secondary address table)
    (base : Option Int) : g.TableAt ctx known secondary address { table with base := base } where
  start := stands.start
  heads := stands.heads
  few := stands.few
  point := stands.point
  entries := stands.entries
  run := stands.run

/-- Bases may be attached to all tables. -/
theorem Tables.attachBases (follow : g.Tables ctx known secondary address tables stop)
    (placed : List (Int × Int)) (virtuals used : List Int) :
    g.Tables ctx known secondary address (attachBases placed virtuals used tables) stop := by
  induction follow generalizing used with
  | done => exact .done
  | table clear stands rest ih => exact .table clear (stands.withBase _) (ih _)

/-- The last table ends where all of them end. -/
theorem Tables.stop_eq (follow : g.Tables ctx known secondary address tables stop) {last : SubTable}
    (ends : tables.getLast? = some last) : stop = last.stop ctx.image.ptr := by
  induction follow with
  | done => cases ends
  | @table _ _ _ first rest clear stands follow ih =>
    cases rest with
    | nil =>
      cases ends
      cases follow
      rfl
    | cons second rest => exact ih ends

/-- Each of the tables stands somewhere, the secondary ones with a header for such tables. -/
theorem Tables.tableAt (follow : g.Tables ctx known secondary address tables stop)
    (member : table ∈ tables) :
    ∃ later start, (secondary = true → later = true) ∧ g.TableAt ctx known later start table := by
  induction follow with
  | done => cases member
  | @table secondary address _ first rest clear stands follow ih =>
    rcases List.mem_cons.mp member with rfl | below
    · exact ⟨secondary, address, id, stands⟩
    · obtain ⟨later, start, always, stands⟩ := ih below
      exact ⟨later, start, fun _ => always rfl, stands⟩

/-- The offset to the top of a secondary table is not zero. -/
theorem Tables.offsetToTop_ne_zero (follow : g.Tables ctx known secondary address tables stop)
    (member : table ∈ tables.tail) : table.offsetToTop ≠ 0 := by
  cases follow with
  | done => cases member
  | table clear stands follow =>
    obtain ⟨later, start, always, stands⟩ := follow.tableAt member
    exact stands.heads.header.nonzero (always rfl)

theorem readTables_nil {count : Nat} : g.ReadTables ctx known secondary address count [] where
  follow := ⟨address, .done⟩
  length := Nat.zero_le count
  bare := List.forall_mem_nil _

/-- A table before those that follow it. -/
theorem ReadTables.cons {count : Nat} (bare : table.base = none)
    (clear : secondary = true → ctx.image.hasSymbolAt address = false)
    (stands : g.TableAt ctx known secondary address table)
    (rest : g.ReadTables ctx known true (table.stop ctx.image.ptr) count tables) :
    g.ReadTables ctx known secondary address (count + 1) (table :: tables) where
  follow := by
    obtain ⟨stop, follow⟩ := rest.follow
    exact ⟨stop, .table clear stands follow⟩
  length := Nat.succ_le_succ rest.length
  bare := List.forall_mem_cons.mpr ⟨bare, rest.bare⟩

/-- **The tables that are read follow each other.** -/
theorem tablesFrom_settles {g : Group} (owned : ctx.Identified g.owner) (count : Nat)
    (first : Bool) (address : Int) :
    Settles ctx (fun known tables => g.ReadTables ctx known (!first) address count tables)
      (g.tablesFrom ctx count first address) := by
  -- By induction on the number of tables that may still come; only the first may be primary.
  induction count generalizing first address with
  | zero => exact .pure fun known => readTables_nil
  | succ count ih =>
    rw [tablesFrom]
    refine Settles.checkCancelled.bind fun _ _ => .ite (fun symbol => ?_) fun clear => ?_
    · exact .pure fun known _ => readTables_nil
    -- A symbol ends the group, except at its first word.
    replace clear : (!first) = true → ctx.image.hasSymbolAt address = false := by
      intro later
      rw [later, Bool.true_and, Bool.not_eq_true] at clear
      exact clear
    refine (headerOf?_settles owned (!first) address).bind fun header _ => ?_
    cases header with
    | none => exact .pure fun known _ _ => readTables_nil
    | some h =>
      refine (slotsAt_settles owned (h.address + 2 * ctx.image.ptr)).bind fun slots _ => ?_
      refine (ih false _).bind fun rest _ => .pure fun known read run iff _ => ?_
      obtain ⟨heads, most, limit, few⟩ := (iff h).mp rfl
      exact read.cons rfl clear (tableAt_ofHeader heads limit few run)

end Group

/-! ### Vtables -/

namespace TypeInfo

variable (ctx : Context) (t : TypeInfo)

/-- The bases of the class with the places, other than the start of the object, where they are. -/
def placesOf (placed : List (TypeInfo × Int)) : List (Int × Int) :=
  (placed.filter (·.2 ≠ 0)).map fun (base, offset) => (base.address, offset)

/-- Bases are attached to the secondary tables of the class. -/
def Attached (known : Knowledge) (secondaries : List SubTable) : Prop :=
  secondaries = [] ∨ ∃ placed virtuals bare, t.baseOffsets ctx known = .ok placed known ∧
    t.virtualBases ctx known = .ok virtuals known ∧
    secondaries = attachBases (placesOf placed) (virtuals.map (·.address)) [] bare

/-- The tables of a group of the class are `attached` once bases are attached to them. -/
structure Completes (known : Knowledge) (tables attached : List SubTable) : Prop where
  /-- The first table serves the class itself. -/
  head : attached.head? = tables.head?
  /-- The others serve bases. -/
  tail : t.Attached ctx known attached.tail
  /-- No table is left out. -/
  length : attached.length = tables.length
  /-- The tables stand where they stood. -/
  follow : ∀ {g : Group} {secondary : Bool} {address stop : Int},
    g.Tables ctx known secondary address tables stop →
    g.Tables ctx known secondary address attached stop

/-- What is known of the vtable of the class that is read at `address` as the group `g`. -/
structure Parsed (known : Knowledge) (address : Int) (g : Group) (v : Vtable) : Prop where
  /-- The class owns the group. -/
  owner : g.owner = t
  /-- The group lies in the block at the address. -/
  block : ctx.image.blockAt? address = some g.block
  /-- Secondary tables are looked for where the hierarchy branches. -/
  secondaries : g.secondaries = true ↔ ctx.Branches known t
  /-- The vtable starts at the address. -/
  starts : v.address = address
  /-- It is a vtable of the class. -/
  owned : v.typeInfo = t.address
  /-- It has a table. -/
  nonempty : v.tables ≠ []
  /-- The tables follow each other. -/
  follow : g.Tables ctx known false address v.tables v.stop
  /-- Each secondary table may serve an ancestor. -/
  count : ∃ ancestors, t.ancestors ctx known = .ok ancestors known ∧
    v.tables.length ≤ 1 + ancestors.length
  /-- Without branching there is one table. -/
  single : g.secondaries = false → v.tables.length = 1
  /-- The first table serves the class itself. -/
  primary : ∀ table ∈ v.tables.head?, table.base = none
  /-- The others serve bases. -/
  attached : t.Attached ctx known v.tables.tail

variable {ctx t}

/-- The tables keep their order and their words when bases are attached to them. -/
theorem withBases_settles (identified : ctx.Identified t) (tables : List SubTable) :
    Settles ctx (fun known attached => t.Completes ctx known tables attached)
      (t.withBases ctx tables) := by
  -- a table that stands alone is left as it is
  have alone : ∀ known, tables.tail = [] → t.Completes ctx known tables tables :=
    fun known single => ⟨rfl, .inl single, rfl, id⟩
  unfold withBases
  rcases tables with _ | ⟨primary, _ | ⟨second, rest⟩⟩
  · exact .pure fun known => alone known rfl
  · exact .pure fun known => alone known rfl
  · refine (Context.baseOffsets_settles identified).bind fun placed _ => ?_
    refine (Context.virtualBases_settles identified).bind fun virtuals _ => ?_
    refine .pure fun known ⟨listed, _⟩ offsets => ?_
    refine ⟨rfl, .inr ⟨placed, virtuals, _, offsets, listed, rfl⟩, ?_, ?_⟩
    · have kept := congrArg List.length (attachBases_withoutBase (placesOf placed)
        (virtuals.map (·.address)) [] (second :: rest))
      rw [List.length_map, List.length_map] at kept
      exact congrArg (· + 1) kept
    · intro g secondary address stop follow
      cases follow with
      | table clear stands follow => exact .table clear stands (follow.attachBases _ _ _)

/-- What is known of the vtable that is put together from the tables that were read. -/
theorem parsed_of_tables {known : Knowledge} {address : Int} {g : Group} {count : Nat}
    {tables attached : List SubTable} {last : SubTable} (owner : g.owner = t)
    (block : ctx.image.blockAt? address = some g.block)
    (branches : g.secondaries = true ↔ ctx.Branches known t)
    (bound : ∃ ancestors, t.ancestors ctx known = .ok ancestors known ∧
      count ≤ 1 + ancestors.length) (single : g.secondaries = false → count = 1)
    (read : g.ReadTables ctx known false address count tables)
    (completes : t.Completes ctx known tables attached) (ends : tables.getLast? = some last) :
    t.Parsed ctx known address g ⟨address, t.address, attached, last.stop ctx.image.ptr⟩ := by
  have positive : 0 < tables.length := List.length_pos_of_mem (List.mem_of_getLast? ends)
  have few : attached.length ≤ count := completes.length ▸ read.length
  obtain ⟨stop, follow⟩ := read.follow
  -- The fields of the record, in their order; those that are not left open hold by construction.
  refine ⟨owner, block, branches, rfl, rfl, ?_, ?_, ?_, fun alone => ?_, ?_, completes.tail⟩
  · exact List.ne_nil_of_length_pos (completes.length ▸ positive)
  · show g.Tables ctx known false address attached (last.stop ctx.image.ptr)
    rw [← follow.stop_eq ends]
    exact completes.follow follow
  · obtain ⟨ancestors, asked, most⟩ := bound
    exact ⟨ancestors, asked, Nat.le_trans few most⟩
  · show attached.length = 1
    have one := single alone
    have same := completes.length
    omega
  · intro table first
    rw [completes.head] at first
    exact read.bare table (List.mem_of_mem_head? first)

/-- **The vtables that are read.** -/
theorem vtableAt?_settles (identified : ctx.Identified t) (address : Int) :
    Settles ctx (fun known found => ∀ v, found = some v → ∃ g, t.Parsed ctx known address g v)
      (t.vtableAt? ctx address) := by
  have none : ∀ known v, none = some v → ∃ g, t.Parsed ctx known address g v :=
    fun known v found => by cases found
  rw [vtableAt?]
  cases located : (ctx.image.blockAt? address).filter (·.initialized) with
  | none => exact .pure none
  | some block =>
    obtain ⟨inside, -⟩ := Option.filter_eq_some_iff.mp located
    refine (Context.hasSecondaries_settles identified).bind fun secondaries _ => ?_
    extract_lets rest
    -- what follows once it is known how many tables there can be
    have counted : ∀ count, (secondaries = false → count = 1) →
        Settles ctx (fun known found => (secondaries = true ↔ ctx.Branches known t) →
          (∃ ancestors, t.ancestors ctx known = .ok ancestors known ∧
            count ≤ 1 + ancestors.length) →
          ∀ v, found = some v → ∃ g, t.Parsed ctx known address g v) (rest count) := by
      intro count single
      refine (Group.tablesFrom_settles (g := ⟨t, block, secondaries⟩) identified count true
        address).bind fun tables _ => ?_
      cases ends : tables.getLast? with
      | none => exact .pure fun known _ _ _ => none known
      | some last =>
        refine (withBases_settles identified tables).bind fun attached _ => ?_
        refine .pure fun known completes read branches bound v made => ?_
        cases made
        exact ⟨_, parsed_of_tables rfl inside branches bound single read completes ends⟩
    refine .ite (fun searched => ?_) fun alone => ?_
    · refine (Context.ancestors_settles identified).bind fun ancestors _ => ?_
      refine (counted _ fun alone => ?_).mono fun known found parsed listed both => ?_
      · cases searched.symm.trans alone
      · obtain ⟨edges, walked, same⟩ := listed
        exact parsed both.2 ⟨ancestors, same ▸ walked.ancestors, Nat.le_refl _⟩
    · refine (counted 1 fun _ => rfl).mono fun known found parsed answered => ?_
      obtain ⟨⟨edges, walked⟩, branches⟩ := answered
      exact parsed branches ⟨_, walked.ancestors, Nat.le_add_right 1 _⟩

end TypeInfo

/-! ### Sessions -/

namespace Session

/-- What is known of a vtable that is read at any time in a session. -/
theorem parsed_of_vtableAt? {image : Image} {demangle : Demangler} {limits : Limits}
    {detector : Detector} {listing : Listing} {queries : List Query} {t : TypeInfo} {address : Int}
    {v : Vtable} {after : Knowledge} {s : Session}
    (reached : s = (start image demangle limits detector listing).after queries)
    (identified : s.context.Identified t)
    (read : t.vtableAt? s.context address s.known = .ok (some v) after) :
    ∃ g, t.Parsed s.context after address g v := by
  have grounded : s.Grounded :=
    reached ▸ (after_leads (grounded_start image demangle limits detector listing) queries).1
  exact (TypeInfo.vtableAt?_settles identified address).now grounded read v rfl

/-- **Runs of slots are sound and go as far as they can.**  In the vtable of a class that is read in
    a session, the words of each slot can be read as that slot, no reason to end a run holds there,
    and one holds after the last slot.  Secondary headers are looked for if the hierarchy
    branches. -/
theorem slot_runs (image : Image) (demangle : Demangler) (limits : Limits) (detector : Detector)
    (listing : Listing) (queries : List Query) (t : TypeInfo) (address : Int) (v : Vtable)
    (after : Knowledge) :
    let s := (start image demangle limits detector listing).after queries
    let ctx := s.context
    ctx.Identified t → t.vtableAt? ctx address s.known = .ok (some v) after →
    ∃ g : Group, g.owner = t ∧ ctx.image.blockAt? address = some g.block ∧
      (g.secondaries = true ↔ ctx.Branches after t) ∧
      ∀ table ∈ v.tables,
        (∀ front slot rest, table.slots = front ++ slot :: rest →
          let place := table.addressPoint + ctx.image.ptr * front.length
          ctx.SlotAt front.getLast? place slot ∧ ¬ g.RunEnds ctx after front.getLast? place ∧
            (slot.isPure = true ↔ ctx.IsPureAt place) ∧
            (slot.isPure = true → slot.function = none)) ∧
        g.RunEnds ctx after table.slots.getLast?
          (table.addressPoint + ctx.image.ptr * table.slots.length) := by
  intro s ctx identified read
  obtain ⟨g, parsed⟩ := parsed_of_vtableAt? rfl identified read
  refine ⟨g, parsed.owner, parsed.block, parsed.secondaries, fun table member => ?_⟩
  obtain ⟨later, start, -, stands⟩ := parsed.follow.tableAt member
  constructor
  · intro front slot rest split
    have run := stands.run
    rw [split] at run
    obtain ⟨here, goes⟩ := run.slotAt
    rw [Option.or_none] at here goes
    exact ⟨here, goes, here.isPure_iff, here.function_of_isPure⟩
  · have ends := stands.run.runEnds
    rw [Option.or_none] at ends
    exact ends

end Session

/-- The data of a program with a class that has one base twice: the type_info of the repeated base
    and of a virtual base at the start, that of a class over the repeated base after 16 bytes, that
    of a class over all three after 40 bytes, and its vtable after 80. -/
def Block.sampleRepeated : Block where
  name := ".data"
  start := 0x400000
  data := ⟨(([0x500008, 0, 0x500008, 0, 0x500108, 0, 0, 1, 0x400000, 0x402,
      0x500108, 0, 0, 3, 0x400000, 0x402, 0x400010, 0x802, 0x400008, 0xfffff403,
      0, 0x400028, 0x600000, 0x600008, 0, 0x60000c, 0xfffffffc, 0x400028, 0x600000,
      0, 0xfffffff4, 0xfffffff8, 0x400028, 0x600000, 0xfffffff4, 0x400028, 0x600000] :
      List Nat).flatMap (littleBytes 4)).toArray⟩
  size := 148

/-- A program with a class that has one base twice. -/
def Image.sampleRepeated : Image where
  width := .narrow
  order := .little
  arch := "i386"
  abi := none
  blocks := [.sampleRepeated, .sampleCode]
  symbols := [{ name := "_ZTVN10__cxxabiv117__class_type_infoE", address := 0x500000 },
    { name := "_ZTVN10__cxxabiv121__vmi_class_type_infoE", address := 0x500100 },
    { name := "_ZTV1D", address := 0x400050 },
    { name := "_ZN1DD1Ev", address := 0x600008, isFunction := true },
    { name := "__cxa_pure_virtual", address := 0x60000c, isFunction := true }]
  relocations := ∅
  ordered := by decide

namespace Session

/-- A session about that program. -/
def sampleRepeated : Session :=
  start .sampleRepeated (fun symbol => if symbol = "_ZN1DD1Ev" then some "D::~D()" else none) {}
    (.ofTable []) []

/-- The class over all three. -/
theorem identified_sampleRepeated :
    sampleRepeated.context.Identified ⟨0x400028, .general⟩ := by
  unfold Context.Identified
  decide +kernel

end Session

/-- Its vtable: a function, a destructor, a null slot and a pure function, then tables for the
    repeated base, for the class over it, and for the repeated base in that class. -/
def Vtable.sampleRepeated : Vtable where
  address := 0x400050
  typeInfo := 0x400028
  tables :=
    [{ start := 0x400050, header := 0x400050, addressPoint := 0x400058,
       entries := [.offsetToTop 0, .typeInfo 0x400028, .slot { address := some 0x600000 },
        .slot { address := some 0x600008, function := some ⟨0x600008, "_ZN1DD1Ev", 0⟩ },
        .slot {}, .slot { address := some 0x60000c, isPure := true }] },
     { start := 0x400068, header := 0x400068, addressPoint := 0x400070, base := some 0x400000,
       entries := [.offsetToTop (-4), .typeInfo 0x400028, .slot { address := some 0x600000 }] },
     { start := 0x400074, header := 0x40007c, addressPoint := 0x400084, base := some 0x400010,
       vcallOffsets := [0, -12],
       entries := [.offsetToTop (-8), .typeInfo 0x400028, .slot { address := some 0x600000 }] },
     { start := 0x400088, header := 0x400088, addressPoint := 0x400090, base := some 0x400008,
       entries := [.offsetToTop (-12), .typeInfo 0x400028, .slot { address := some 0x600000 }] }]
  stop := 0x400094

namespace Session

/-- The vtable is read at its symbol. -/
theorem vtableAt?_sampleRepeated : ∃ after,
    TypeInfo.vtableAt? sampleRepeated.context ⟨0x400028, .general⟩ 0x400050 sampleRepeated.known =
      .ok (some .sampleRepeated) after := by
  rw [← run'_eq_some_iff]
  decide +kernel

/-- The null slot after the destructor is sound, and the run of slots of each table ends where it
    has to. -/
theorem slot_runs_sampleRepeated : ∃ after,
    TypeInfo.vtableAt? sampleRepeated.context ⟨0x400028, .general⟩ 0x400050 sampleRepeated.known =
      .ok (some .sampleRepeated) after ∧
    sampleRepeated.context.SlotAt
      (some { address := some 0x600008, function := some ⟨0x600008, "_ZN1DD1Ev", 0⟩ }) 0x400060 {} ∧
    ∃ g : Group, g.owner = ⟨0x400028, .general⟩ ∧
      ∀ table ∈ Vtable.sampleRepeated.tables,
        g.RunEnds sampleRepeated.context after table.slots.getLast?
          (table.addressPoint + 4 * table.slots.length) := by
  obtain ⟨after, read⟩ := vtableAt?_sampleRepeated
  obtain ⟨g, owner, -, -, runs⟩ := slot_runs .sampleRepeated _ {} (.ofTable []) [] [] _ _ _ after
    identified_sampleRepeated read
  refine ⟨after, read, ?_, g, owner, fun table member => (runs table member).2⟩
  exact ((runs _ (List.mem_cons_self ..)).1 [_, _] {} [_] rfl).1

end Session

end ItaniumRtti
