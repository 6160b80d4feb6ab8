import ItaniumRtti.Proofs.Simulation.Hierarchy

namespace ItaniumRtti

/-!
# Two ways of asking about vtables

Headers, slots and groups of sub-tables are read alike, so that vtables and tables of vtables are
found alike.

* `Vtable.Found` — what is known of a vtable that was found;
* `Walking.withBases` — the bases that secondary tables serve;
* `Locating` — two ways of reading names and walking over the base graph;
* `Locating.headerOf?`, `Locating.slotsFrom`, `Locating.tablesFrom` — the parts of a group;
* `Locating.locateVtable` — vtables are located alike;
* `Consulting` — two ways of asking that also know vtables alike;
* `Consulting.isAbstract` — abstractness;
* `Simulation` — two ways of asking that also know tables of vtables alike.
-/

open Recover

/-! ### Bases of tables -/

/-- The tables serve classes of which `Good` holds. -/
def Vtable.Serves (Good : TypeInfo → Prop) (v : Vtable) : Prop :=
  ∀ table ∈ v.tables, ∀ base ∈ table.base, ∃ s, Good s ∧ s.address = base

theorem Vtable.serves_any {v : Vtable} : v.Serves Any :=
  fun _ _ base _ => ⟨⟨base, .simple⟩, trivial, rfl⟩

/-- What is known of a vtable that was found. -/
structure Vtable.Found (img : Image) (Good : TypeInfo → Prop) (v : Vtable) : Prop where
  /-- Its tables serve classes of which `Good` holds. -/
  serves : v.Serves Good
  /-- Its first table lies in a block with contents. -/
  inside : ∀ primary ∈ v.primary?,
    ∃ b ∈ img.blocks, b.initialized = true ∧ primary.addressPoint ≤ b.stop

/-- Nothing is wrong with the vtable that is given when none was found. -/
theorem Vtable.found_missing (img : Image) (Good : TypeInfo → Prop) :
    Vtable.missing.Found img Good where
  serves := List.forall_mem_nil _
  inside _ none := by cases none

/-- The table, whichever base it serves. -/
def SubTable.withoutBase (t : SubTable) : SubTable :=
  { t with base := none }

/-- Attaching bases changes nothing else. -/
theorem attachBases_withoutBase (placed : List (Int × Int)) (virtuals used : List Int)
    (tables : List SubTable) :
    (attachBases placed virtuals used tables).map (·.withoutBase) =
      tables.map (·.withoutBase) := by
  induction tables generalizing used with
  | nil => rfl
  | cons t rest ih =>
    rw [attachBases, List.map_cons, List.map_cons, ih]
    rfl

/-- The bases attached are bases that have a place, or virtual ones. -/
theorem mem_of_attachBases {placed : List (Int × Int)} {virtuals used : List Int}
    {tables : List SubTable} {table : SubTable}
    (member : table ∈ attachBases placed virtuals used tables) {base : Int}
    (serves : base ∈ table.base) : base ∈ placed.map (·.1) ∨ base ∈ virtuals := by
  induction tables generalizing used with
  | nil => exact absurd member List.not_mem_nil
  | cons t rest ih =>
    rw [attachBases] at member
    rcases List.mem_cons.mp member with rfl | later
    · rcases Option.or_eq_some_iff.mp serves with found | ⟨-, next⟩
      · obtain ⟨p, here, rfl⟩ := Option.map_eq_some_iff.mp found
        exact .inl (List.mem_map_of_mem (List.mem_of_find?_eq_some here))
      · exact .inr (List.mem_of_find?_eq_some next)
    · exact ih later

/-- What is known of the tables of a group once bases are attached to them. -/
structure Attached (Good : TypeInfo → Prop) (tables attached : List SubTable) : Prop where
  /-- Nothing but the bases was changed. -/
  same : attached.map (·.withoutBase) = tables.map (·.withoutBase)
  /-- The bases that were attached are good. -/
  serves : (∀ t ∈ tables, t.base = none) →
    ∀ t ∈ attached, ∀ base ∈ t.base, ∃ s, Good s ∧ s.address = base

/-- Tables to which no base was attached. -/
theorem Attached.refl (Good : TypeInfo → Prop) (tables : List SubTable) :
    Attached Good tables tables where
  same := rfl
  serves plain t member base serves := by
    rw [plain t member] at serves
    cases serves

/-- Bases are attached to tables alike. They come from the placed bases or the virtual ones, so they
    are good. -/
theorem Walking.withBases {ctx : Context} {relocations : Std.TreeMap Int Relocation} {R : Link}
    {Good : TypeInfo → Prop} (sim : Walking ctx relocations R Good) {t : TypeInfo} (good : Good t)
    (tables : List SubTable) :
    Alike R (Attached Good tables) (t.withBases ctx tables)
      (t.withBases (ctx.withRelocations relocations) tables) := by
  rw [TypeInfo.withBases.eq_def, TypeInfo.withBases.eq_def]
  -- Bases are only looked for if there is a second table.
  rcases tables with _ | ⟨primary, _ | ⟨second, rest⟩⟩
  · exact .pure (.refl Good _)
  · exact .pure (.refl Good _)
  · refine (sim.baseOffsets good).bind fun placed placedGood => ?_
    refine (sim.virtualBases good).map fun virtuals virtualGood => ⟨?_, ?_⟩
    · rw [List.map_cons, attachBases_withoutBase]
      rfl
    · intro plain table member base serves
      rcases List.mem_cons.mp member with rfl | later
      · rw [plain _ (List.mem_cons_self ..)] at serves
        cases serves
      · rcases mem_of_attachBases later serves with found | found
        · obtain ⟨_, mapped, rfl⟩ := List.mem_map.mp found
          obtain ⟨p, kept, rfl⟩ := List.mem_map.mp mapped
          exact ⟨p.1, placedGood p (List.mem_of_mem_filter kept), rfl⟩
        · obtain ⟨s, listed, rfl⟩ := List.mem_map.mp found
          exact ⟨s, virtualGood s listed, rfl⟩

/-! ### Locating -/

/-- Two ways of asking where vtables are.  `Named` holds of the classes whose names are asked for,
    `Good` of those whose bases are. -/
structure Locating (ctx : Context) (relocations : Std.TreeMap Int Relocation) (R : Link)
    (Named Good : TypeInfo → Prop) : Prop extends
    Naming ctx relocations R Named, Walking ctx relocations R Good where
  /-- Good classes have names. -/
  named : ∀ {t}, Good t → Named t

namespace Locating

variable {ctx : Context} {relocations : Std.TreeMap Int Relocation} {R : Link}
  {Named Good : TypeInfo → Prop} (sim : Locating ctx relocations R Named Good)
include sim

/-! ### Headers -/

/-- A word that refers to the owner lies in the block of the group. -/
theorem pointsAtOwner {g : Group} (good : Good g.owner) (address : Int) :
    Alike R (fun refers => refers = true → g.block.contains address ctx.image.ptr = true)
      (g.pointsAtOwner ctx address)
      (g.pointsAtOwner (ctx.withRelocations relocations) address) := by
  rw [Group.pointsAtOwner, Group.pointsAtOwner, sim.reads.symbol]
  refine .ite (fun _ => .pure fun refers => by cases refers) fun outside => ?_
  have inside : g.block.contains address ctx.image.ptr = true := by
    cases contained : g.block.contains address ctx.image.ptr with
    | true => rfl
    | false =>
      rw [contained] at outside
      exact absurd rfl outside
  refine Alike.mono (P := Any) (fun _ _ _ => inside) ?_
  extract_lets byValue byValue'
  -- What both sides do unless the word is relocated against the owner's symbol.
  have value : Alike R Any (byValue ()) (byValue' ()) := by
    refine (sim.resolve address).bind fun value _ => ?_
    cases value with
    | none => exact .pure trivial
    | some target =>
      refine .ite (fun _ => .pure trivial) fun _ => .ite (fun _ => .pure trivial) fun _ => ?_
      refine (sim.identify target).bind fun found identified => ?_
      cases found with
      | none => exact .pure trivial
      | some other =>
        refine (sim.nameOf (sim.good identified)).bind fun name _ => ?_
        refine .ite (fun _ => .pure trivial) fun _ => ?_
        exact (sim.typeName (sim.named good)).map fun _ _ => trivial
  cases (ctx.image.relocationAt? address).bind (·.symbol) with
  | none => exact value
  | some symbol =>
    refine (sim.typeName (sim.named good)).bind fun name _ => ?_
    exact .ite (fun _ => .pure trivial) fun _ => value

/-- A header lies in the block of the group, with the word that refers to the owner. -/
theorem offsetAt? {g : Group} (good : Good g.owner) (secondary : Bool) (address : Int) :
    Alike R (fun offset => offset.isSome = true → address + 2 * ctx.image.ptr ≤ g.block.stop)
      (g.offsetAt? ctx secondary address)
      (g.offsetAt? (ctx.withRelocations relocations) secondary address) := by
  rw [Group.offsetAt?, Group.offsetAt?, sim.reads.smallInt]
  refine (Alike.liftAny (sim.tolerates.smallInt g address)).bind fun word _ => ?_
  cases word with
  | none => exact .pure fun none => by cases none
  | some offset =>
    refine .ite (fun _ => .pure fun none => by cases none) fun _ => ?_
    refine (sim.pointsAtOwner good _).bind fun refers inside => ?_
    refine .ite (fun yes => .pure fun _ => ?_) (fun _ => .pure fun none => by cases none)
    have fits := (g.block.contains_iff _ _).mp (inside yes)
    omega

/-- Both ways stop at the same header, and there is room for it in the block. -/
theorem headerFrom {g : Group} (good : Good g.owner) (secondary : Bool) (tries : Nat)
    (first : Bool) (address : Int) :
    Alike R (fun header => ∀ h ∈ header, h.address + 2 * ctx.image.ptr ≤ g.block.stop)
      (g.headerFrom ctx secondary tries first address)
      (g.headerFrom (ctx.withRelocations relocations) secondary tries first address) := by
  have none : ∀ h ∈ (none : Option Header), h.address + 2 * ctx.image.ptr ≤ g.block.stop :=
    fun h member => (Option.not_mem_none h member).elim
  -- Each try that fails goes on one word later; the words passed over are added to the header.
  induction tries generalizing first address with
  | zero => exact .pure none
  | succ tries ih =>
    rw [Group.headerFrom, Group.headerFrom]
    refine .ite (fun _ => .pure none) fun _ => ?_
    refine (sim.offsetAt? good secondary address).bind fun offset inside => ?_
    cases offset with
    | some offset =>
      refine .pure fun h member => ?_
      cases Option.mem_some_iff.mp member
      exact inside rfl
    | none =>
      rw [sim.reads.smallInt]
      refine (Alike.liftAny (sim.tolerates.smallInt g address)).bind fun word _ => ?_
      cases word with
      | none => exact .pure none
      | some value =>
        refine (ih false _).map fun header inside h member => ?_
        obtain ⟨h', found, rfl⟩ := Option.map_eq_some_iff.mp member
        exact inside h' found

/-- So they find the same header of a table. -/
theorem headerOf? {g : Group} (good : Good g.owner) (secondary : Bool) (start : Int) :
    Alike R (fun header => ∀ h ∈ header, h.address + 2 * ctx.image.ptr ≤ g.block.stop)
      (g.headerOf? ctx secondary start)
      (g.headerOf? (ctx.withRelocations relocations) secondary start) := by
  rw [Group.headerOf?, Group.headerOf?]
  refine (Alike.liftAny sim.tolerates.vcallOffsets).bind fun most _ => ?_
  exact sim.headerFrom good secondary _ true start

/-! ### Slots -/

/-- A word is a slot in both ways or in neither. -/
theorem slotAt? {g : Group} (good : Good g.owner) (first afterDestructor : Bool) (address : Int) :
    Alike R Any (g.slotAt? ctx first afterDestructor address)
      (g.slotAt? (ctx.withRelocations relocations) first afterDestructor address) := by
  rw [Group.slotAt?, Group.slotAt?]
  refine .ite (fun _ => .pure trivial) fun _ => ?_
  extract_lets relocation symbol gap rest relocation' symbol' rest'
  -- What follows once no secondary header stands at the word.
  have word : Alike R Any (rest ()) (rest' ()) := by
    have sameSymbol : symbol' = symbol := sim.reads.symbol address
    have resolved : Alike R (fun value => ctx.image.resolve address = .ok value)
        (lift (ctx.image.resolve address))
        (lift ((ctx.withRelocations relocations).image.resolve address)) := by
      rw [sim.reads.resolve]
      exact .lift (sim.tolerates.resolve address) fun _ is => is
    refine resolved.bind fun value is => ?_
    have sameZero : (decide (value = some 0) && relocation'.isNone) =
        (decide (value = some 0) && relocation.isNone) := by
      by_cases zero : value = some 0
      · rw [sim.reads.isNone_of_zero (zero ▸ is)]
      · rw [decide_eq_false zero, Bool.false_and, Bool.false_and]
    rw [sameSymbol, sameZero]
    refine .ite (fun _ => .pure trivial) fun _ => .ite (fun _ => ?_) fun _ => ?_
    · refine .ite (fun _ => .pure trivial) fun _ => .ite (fun _ => ?_) fun _ => .pure trivial
      refine (sim.headerOf? good true address).bind fun header _ => ?_
      exact .ite (fun _ => .pure trivial) (fun _ => .pure trivial)
    · exact .ite (fun _ => .pure trivial) (fun _ => .pure trivial)
  refine .ite (fun _ => ?_) fun _ => word
  refine (sim.offsetAt? good true address).bind fun offset _ => ?_
  exact .ite (fun _ => .pure trivial) (fun _ => word)

/-- Runs of slots are the same. -/
theorem slotsFrom {g : Group} (good : Good g.owner) (words : Nat) (first afterDestructor : Bool)
    (address : Int) :
    Alike R Any (g.slotsFrom ctx words first afterDestructor address)
      (g.slotsFrom (ctx.withRelocations relocations) words first afterDestructor address) := by
  induction words generalizing first afterDestructor address with
  | zero => exact .pure trivial
  | succ words ih =>
    rw [Group.slotsFrom, Group.slotsFrom]
    refine .ite (fun _ => .pure trivial) fun _ => ?_
    refine (sim.slotAt? good first afterDestructor address).bind fun slot _ => ?_
    cases slot with
    | none => exact .pure trivial
    | some slot => exact (ih _ _ _).map fun _ _ => trivial

/-! ### Groups -/

/-- The tables of a group are the same. No base is attached to them yet, and they end in the block.
    -/
theorem tablesFrom {g : Group} (good : Good g.owner) (count : Nat) (first : Bool) (address : Int) :
    Alike R (fun tables => ∀ t ∈ tables, t.base = none ∧ t.addressPoint ≤ g.block.stop)
      (g.tablesFrom ctx count first address)
      (g.tablesFrom (ctx.withRelocations relocations) count first address) := by
  induction count generalizing first address with
  | zero => exact .pure (List.forall_mem_nil _)
  | succ count ih =>
    rw [Group.tablesFrom, Group.tablesFrom]
    refine sim.checkCancelled.bind fun _ _ => ?_
    refine .ite (fun _ => .pure (List.forall_mem_nil _)) fun _ => ?_
    refine (sim.headerOf? good (!first) address).bind fun header inside => ?_
    cases header with
    | none => exact .pure (List.forall_mem_nil _)
    | some header =>
      refine (sim.slotsFrom good _ true false _).bind fun slots _ => ?_
      refine (ih false _).map fun tables others => ?_
      exact List.forall_mem_cons.mpr ⟨⟨rfl, inside header rfl⟩, others⟩

/-- The same vtable is read at an address. -/
theorem vtableAt? {t : TypeInfo} (good : Good t) (address : Int) :
    Alike R (fun found => ∀ v ∈ found, v.Found ctx.image Good) (t.vtableAt? ctx address)
      (t.vtableAt? (ctx.withRelocations relocations) address) := by
  have none : ∀ v ∈ (none : Option Vtable), v.Found ctx.image Good :=
    fun v member => (Option.not_mem_none v member).elim
  rw [TypeInfo.vtableAt?, TypeInfo.vtableAt?, Context.blockAt?_withRelocations]
  cases found : (ctx.image.blockAt? address).filter (·.initialized) with
  | none => exact .pure none
  | some block =>
    obtain ⟨lies, initialized⟩ := Option.filter_eq_some_iff.mp found
    have member : block ∈ ctx.image.blocks := (Image.mem_of_blockAt? lies).1
    refine (sim.hasSecondaries good).bind fun secondaries _ => ?_
    extract_lets rest rest'
    -- Whether one table is read or as many as there are classes, the rest goes the same way.
    have counted : ∀ count, Alike R (fun found => ∀ v ∈ found, v.Found ctx.image Good)
        (rest count) (rest' count) := by
      intro count
      refine (sim.tablesFrom good count true address).bind fun tables inside => ?_
      cases tables.getLast? with
      | none => exact .pure none
      | some last =>
        refine (sim.withBases good tables).map fun attached known v made => ?_
        cases Option.mem_some_iff.mp made
        refine ⟨known.serves fun t listed => (inside t listed).1, fun primary first => ?_⟩
        -- The first table is one of those read, whatever base was attached to it.
        have listed : primary.withoutBase ∈ tables.map (·.withoutBase) :=
          known.same ▸ List.mem_map_of_mem (List.mem_of_mem_head? first)
        obtain ⟨table, read, same⟩ := List.mem_map.mp listed
        have point : table.addressPoint = primary.addressPoint := congrArg (·.addressPoint) same
        exact ⟨block, member, initialized, point ▸ (inside table read).2⟩
    refine .ite (fun _ => ?_) fun _ => ?_
    · exact (sim.ancestors good).bind fun ancestors _ => counted _
    · exact counted 1

/-! ### Vtables of classes -/

/-- Groups are taken to start at the same place. -/
theorem groupStart (count : Nat) (address : Int) :
    Alike R Any (lift (ctx.image.groupStart ctx.limits.maxOffsetToTop count address))
      (lift ((ctx.withRelocations relocations).image.groupStart ctx.limits.maxOffsetToTop count
        address)) := by
  rw [sim.reads.groupStart]
  exact .liftAny (sim.tolerates.groupStart count address)

/-- A word that refers to the class leads to the same vtable. -/
theorem vtableWithHeader? {t : TypeInfo} (good : Good t) (header : Int) :
    Alike R (fun found => ∀ v ∈ found, v.Found ctx.image Good) (t.vtableWithHeader? ctx header)
      (t.vtableWithHeader? (ctx.withRelocations relocations) header) := by
  have none : ∀ v ∈ (none : Option Vtable), v.Found ctx.image Good :=
    fun v member => (Option.not_mem_none v member).elim
  rw [TypeInfo.vtableWithHeader?, TypeInfo.vtableWithHeader?]
  show Alike R _ (if (ctx.image.relocationAt? header).isSome then _ else _)
    (if relocations[header]?.isSome then _ else _)
  cases sim.reads.word header with
  | same unchanged =>
    rw [unchanged]
    refine .ite (fun _ => .pure none) fun _ => ?_
    refine (Alike.liftAny (sim.tolerates.readInt _ _ true)).bind fun word _ => ?_
    refine .ite (fun _ => .pure none) fun _ => ?_
    refine (Alike.liftAny sim.tolerates.vcallOffsets).bind fun most _ => ?_
    refine (sim.groupStart most.toNat header).bind fun start _ => ?_
    refine (sim.vtableAt? good start).map fun found known v kept => ?_
    exact known v (Option.filter_eq_some_iff.mp kept).1
  | rebased stored type plain added read nonzero =>
    -- The word holds no zero, so that it is no header whether or not it is relocated.
    rw [plain, added, Context.ReadsAlike.readInt_of_readPointer read]
    show Alike R _ (if some _ ≠ some 0 then pure Option.none else _) (pure Option.none)
    rw [if_pos fun zero => nonzero (Option.some.inj zero)]
    exact .pure none

/-- Of the vtables that references lead to the same one is preferred. -/
theorem bestVtable {t : TypeInfo} (good : Good t) (fallback : Option Vtable)
    (known : ∀ v ∈ fallback, v.Found ctx.image Good) (references : List Int) :
    Alike R (fun found => ∀ v ∈ found, v.Found ctx.image Good)
      (t.bestVtable ctx fallback references)
      (t.bestVtable (ctx.withRelocations relocations) fallback references) := by
  induction references generalizing fallback with
  | nil => exact .pure known
  | cons reference rest ih =>
    rw [TypeInfo.bestVtable, TypeInfo.bestVtable]
    refine (sim.vtableWithHeader? good _).bind fun found here => ?_
    cases found with
    | none => exact ih fallback known
    | some v =>
      refine .ite (fun _ => .pure here) (fun _ => ih _ fun w member => ?_)
      rcases Option.or_eq_some_iff.mp member with before | ⟨-, now⟩
      · exact known w before
      · exact here w now

/-- A symbol leads to the same vtable. -/
theorem vtableBySymbol? {t : TypeInfo} (good : Good t) :
    Alike R (fun found => ∀ v ∈ found, v.Found ctx.image Good) (t.vtableBySymbol? ctx)
      (t.vtableBySymbol? (ctx.withRelocations relocations)) := by
  have none : ∀ v ∈ (none : Option Vtable), v.Found ctx.image Good :=
    fun v member => (Option.not_mem_none v member).elim
  rw [TypeInfo.vtableBySymbol?, TypeInfo.vtableBySymbol?]
  refine (sim.typeName (sim.named good)).bind fun name _ => .ite (fun _ => .pure none) fun _ => ?_
  rw [Context.symbolAddress?_withRelocations]
  cases ctx.image.symbolAddress? (vtablePrefix ++ name) with
  | none => exact .pure none
  | some address => exact sim.vtableAt? good address

/-- **The vtable of a class is found alike**, by its symbol or else by references to the class. -/
theorem locateVtable {t : TypeInfo} (good : Good t)
    (searchable : ctx.Searchable R.faults t.address) :
    Alike R (Vtable.Found ctx.image Good) (t.locateVtable ctx)
      (t.locateVtable (ctx.withRelocations relocations)) := by
  rw [TypeInfo.locateVtable, TypeInfo.locateVtable]
  refine (sim.vtableBySymbol? good).bind fun found here => ?_
  cases found with
  | some v => exact .pure (here v rfl)
  | none =>
    refine (sim.references sim.tolerates.cancelled searchable).bind fun references _ => ?_
    refine (sim.bestVtable good none here references).map fun best known => ?_
    cases best with
    | none => exact Vtable.found_missing ctx.image Good
    | some v => exact known v rfl

end Locating

/-- Runs of entries of a table of vtables depend on words alone. -/
theorem Reading.vttEntries {ctx : Context} {relocations : Std.TreeMap Int Relocation} {R : Link}
    {Good : TypeInfo → Prop} (sim : Reading ctx relocations R Good) (block : Block)
    (regions : List AddressRange) (count : Nat) (first : Bool) (address : Int) :
    Alike R Any (Recover.vttEntries ctx block regions count first address)
      (Recover.vttEntries (ctx.withRelocations relocations) block regions count first address) := by
  induction count generalizing first address with
  | zero => exact .pure trivial
  | succ count ih =>
    rw [Recover.vttEntries, Recover.vttEntries]
    refine .ite (fun _ => .pure trivial) fun _ => ?_
    refine sim.checkCancelled.bind fun _ _ => ?_
    refine .ite (fun _ => .pure trivial) fun _ => ?_
    refine (sim.resolve address).bind fun value _ => ?_
    cases value with
    | none => exact .pure trivial
    | some value => exact .ite (fun _ => .pure trivial) fun _ => (ih false _).map fun _ _ => trivial

/-! ### Vtables that are known -/

/-- Two ways of asking that know the vtables of good classes alike.  `Table` holds of a class and
    its vtable. -/
structure Consulting (ctx : Context) (relocations : Std.TreeMap Int Relocation) (R : Link)
    (Named Good : TypeInfo → Prop) (Table : TypeInfo → Vtable → Prop) : Prop extends
    Locating ctx relocations R Named Good where
  /-- What recognition finds at the address of a good class is good. -/
  again : ∀ {s t}, Good s → ctx.roots.identify ctx.image s.address = .ok (some t) → Good t
  /-- Vtables are known alike. -/
  vtable : ∀ {t}, Good t →
    Alike R (Table t) (t.vtable ctx) (t.vtable (ctx.withRelocations relocations))
  /-- Their tables serve good classes. -/
  serves : ∀ {t v}, Good t → Table t v → v.Serves Good

namespace Consulting

variable {ctx : Context} {relocations : Std.TreeMap Int Relocation} {R : Link}
  {Named Good : TypeInfo → Prop} {Table : TypeInfo → Vtable → Prop}
  (sim : Consulting ctx relocations R Named Good Table)
include sim

/-- Walks over classes that may be abstract come to the same end. -/
theorem anyAbstract (fuel : Nat) (seen : List Int) (pending : List TypeInfo)
    (good : ∀ t ∈ pending, Good t) :
    Alike R Any (Recover.anyAbstract ctx fuel seen pending)
      (Recover.anyAbstract (ctx.withRelocations relocations) fuel seen pending) := by
  induction fuel generalizing seen pending with
  | zero => exact .pure trivial
  | succ fuel ih =>
    rw [Recover.anyAbstract, Recover.anyAbstract]
    have new : ∀ t ∈ pending.dropWhile (fun t => seen.contains t.address), Good t :=
      fun t member => good t ((List.dropWhile_suffix _).subset member)
    revert new
    cases pending.dropWhile (fun t => seen.contains t.address) with
    | nil => exact fun _ => .pure trivial
    | cons t rest =>
      intro new
      obtain ⟨first, others⟩ := List.forall_mem_cons.mp new
      refine (sim.vtable first).bind fun v _ => .ite (fun _ => ?_) fun _ => ?_
      · exact .ite (fun _ => .pure trivial) (fun _ => ih _ rest others)
      · refine (sim.bases first).bind fun bases below => ih _ _ ?_
        exact List.forall_mem_append.mpr ⟨List.forall_mem_map.mpr below, others⟩

theorem isAbstract {t : TypeInfo} (good : Good t) :
    Alike R Any (t.isAbstract ctx) (t.isAbstract (ctx.withRelocations relocations)) := by
  rw [TypeInfo.isAbstract, TypeInfo.isAbstract, sim.reads.classBound]
  exact sim.anyAbstract _ _ _ (List.forall_mem_singleton.mpr good)

/-! ### Tables of vtables -/

/-- Entries of a table of vtables may point into the same places. -/
theorem vttRegions {t : TypeInfo} (good : Good t) (v : Vtable) :
    Alike R Any (t.vttRegions ctx v) (t.vttRegions (ctx.withRelocations relocations) v) := by
  rw [TypeInfo.vttRegions, TypeInfo.vttRegions]
  refine (sim.virtualBases good).bind fun virtuals reached => ?_
  refine (Alike.mapM (S := Any) reached fun base good => (sim.vtable good).any).bind
    fun inherited _ => ?_
  refine (sim.typeName (sim.named good)).bind fun name _ => ?_
  exact .ite (fun _ => .pure trivial) (fun _ => .pure trivial)

/-- The same table of vtables is read at an address. -/
theorem vttAt? {t : TypeInfo} (good : Good t) (v : Vtable) (address : Int) :
    Alike R Any (t.vttAt? ctx v address)
      (t.vttAt? (ctx.withRelocations relocations) v address) := by
  rw [TypeInfo.vttAt?, TypeInfo.vttAt?]
  refine (sim.virtualBases good).bind fun virtuals _ => ?_
  refine .ite (fun _ => .pure trivial) fun _ => ?_
  rw [Context.blockAt?_withRelocations]
  cases v.primary? with
  | none => exact .pure trivial
  | some primary =>
    cases ctx.image.blockAt? address with
    | none => exact .pure trivial
    | some block =>
      refine (sim.vttRegions good v).bind fun regions _ => ?_
      refine (Alike.liftAny (sim.tolerates.vttEntries _)).bind fun most _ => ?_
      refine (sim.vttEntries block regions most true address).bind fun entries _ => ?_
      exact .ite (fun _ => .pure trivial) (fun _ => .pure trivial)

/-- References lead to the same first table of vtables. -/
theorem firstVtt {t : TypeInfo} (good : Good t) (v : Vtable) (references : List Int) :
    Alike R Any (t.firstVtt ctx v references)
      (t.firstVtt (ctx.withRelocations relocations) v references) := by
  induction references with
  | nil => exact .pure trivial
  | cons reference rest ih =>
    rw [TypeInfo.firstVtt, TypeInfo.firstVtt]
    refine .ite (fun _ => ih) fun _ => (sim.vttAt? good v reference).bind fun found _ => ?_
    cases found with
    | some vtt => exact .pure trivial
    | none => exact ih

/-- So does a symbol. -/
theorem vttBySymbol? {t : TypeInfo} (good : Good t) (v : Vtable) :
    Alike R Any (t.vttBySymbol? ctx v) (t.vttBySymbol? (ctx.withRelocations relocations) v) := by
  rw [TypeInfo.vttBySymbol?, TypeInfo.vttBySymbol?]
  refine (sim.typeName (sim.named good)).bind fun name _ => ?_
  refine .ite (fun _ => .pure trivial) fun _ => ?_
  rw [Context.symbolAddress?_withRelocations]
  cases ctx.image.symbolAddress? (vttPrefix ++ name) with
  | none => exact .pure trivial
  | some address => exact sim.vttAt? good v address

/-- **The table of vtables of a class is found alike.** -/
theorem locateVtt {t : TypeInfo} (good : Good t) {v : Vtable}
    (searchable : ∀ primary ∈ v.primary?, ctx.Searchable R.faults primary.addressPoint) :
    Alike R Any (t.locateVtt ctx v) (t.locateVtt (ctx.withRelocations relocations) v) := by
  rw [TypeInfo.locateVtt, TypeInfo.locateVtt]
  revert searchable
  cases v.primary? with
  | none => exact fun _ => .pure trivial
  | some primary =>
    intro searchable
    refine (sim.virtualBases good).bind fun virtuals _ => ?_
    refine .ite (fun _ => .pure trivial) fun _ => ?_
    refine (sim.vttBySymbol? good v).bind fun found _ => ?_
    cases found with
    | some vtt => exact .pure trivial
    | none =>
      have fits := searchable primary rfl
      refine (sim.references sim.tolerates.cancelled fits).bind fun references _ => ?_
      exact sim.firstVtt good v references

end Consulting

/-- Two ways of asking all questions about classes.  The cell with a class's table of vtables is
    used alike once the computation that fills it is. -/
structure Simulation (ctx : Context) (relocations : Std.TreeMap Int Relocation) (R : Link)
    (Named Good : TypeInfo → Prop) (Table : TypeInfo → Vtable → Prop) : Prop extends
    Consulting ctx relocations R Named Good Table where
  /-- The primary address point may be searched for. -/
  searchable : ∀ {t v}, Good t → Table t v →
    ∀ primary ∈ v.primary?, ctx.Searchable R.faults primary.addressPoint
  /-- The cell with a class's table of vtables. -/
  vttCell : ∀ {t}, Good t →
    Alike R Any (t.vtable ctx >>= t.locateVtt ctx)
      (t.vtable (ctx.withRelocations relocations) >>=
        t.locateVtt (ctx.withRelocations relocations)) →
    Alike R Any (t.vtt ctx) (t.vtt (ctx.withRelocations relocations))

/-- It is the same, located or kept. -/
theorem Simulation.vtt {ctx : Context} {relocations : Std.TreeMap Int Relocation} {R : Link}
    {Named Good : TypeInfo → Prop} {Table : TypeInfo → Vtable → Prop}
    (sim : Simulation ctx relocations R Named Good Table) {t : TypeInfo} (good : Good t) :
    Alike R Any (t.vtt ctx) (t.vtt (ctx.withRelocations relocations)) :=
  sim.vttCell good ((sim.vtable good).bind fun _ table =>
    sim.locateVtt good (sim.searchable good table))

end ItaniumRtti
