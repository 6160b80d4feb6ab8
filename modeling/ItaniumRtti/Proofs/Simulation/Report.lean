import ItaniumRtti.Analysis.Run
import ItaniumRtti.Proofs.Simulation.Vtable

namespace ItaniumRtti

/-!
# Two ways of asking for reports

* `TypeInfo.attributeStores_alike`, `Consulting.attributeStores` — stores are attributed to classes
  alike;
* `StoreSimulation` — two ways of asking that also find stores alike;
* `StoreSimulation.correlate` — constructors and destructors are recognised alike;
* `ReportSimulation` — two ways of asking all that a report needs;
* `ReportSimulation.report` — classes are reported alike.
-/

open Recover

/-- The first class whose vtable contains a value is found alike among classes whose vtables are
    known alike. -/
theorem Recover.firstVtableWith_alike {ctx ctx' : Context} {R : Link} (value : Int)
    {classes : List TypeInfo}
    (vtables : ∀ t ∈ classes, Alike R Any (t.vtable ctx) (t.vtable ctx')) :
    Alike R (fun found => ∀ t ∈ found, t ∈ classes) (Recover.firstVtableWith ctx value classes)
      (Recover.firstVtableWith ctx' value classes) := by
  induction classes with
  | nil => exact .pure fun t member => (Option.not_mem_none t member).elim
  | cons t rest ih =>
    obtain ⟨first, others⟩ := List.forall_mem_cons.mp vtables
    rw [Recover.firstVtableWith, Recover.firstVtableWith]
    refine first.bind fun v _ => .ite (fun _ => .pure ?_) fun _ => ?_
    · rintro _ ⟨⟩
      exact List.mem_cons_self ..
    · exact (ih others).mono fun _ inside c found => List.mem_cons_of_mem t (inside c found)

namespace TypeInfo

variable {ctx ctx' : Context} {R : Link} {Owner : TypeInfo → Prop} {t : TypeInfo} {v : Vtable}
  (self : Owner t)
  (owner : ∀ value, Alike R Owner (t.subobjectOwner ctx v value) (t.subobjectOwner ctx' v value))
  (name : ∀ c, Owner c → Alike R Any (c.name ctx) (c.name ctx'))
include self owner name

/-- The entries of a table of vtables take the same stores, and each is attributed to a class of
    which `Owner` holds. -/
theorem attributeEntries_alike (index : Nat) (entries : List Int) (unused : List VptrStore) :
    Alike R (fun result => ∀ a ∈ result.1, Owner a.2)
      (t.attributeEntries ctx v index entries unused)
      (t.attributeEntries ctx' v index entries unused) := by
  induction entries generalizing index unused with
  | nil => exact .pure (List.forall_mem_nil _)
  | cons entry rest ih =>
    rw [attributeEntries, attributeEntries]
    cases unused.find? (·.value == entry) with
    | none => exact ih (index + 1) unused
    | some s =>
      dsimp only
      rw [ite_bind, ite_bind]
      -- The entry belongs to the class itself or to whichever class owns the subobject.
      refine Alike.bind (P := Owner) ?_ fun target owns => ?_
      · exact .ite (fun _ => .pure self) (fun _ => owner entry)
      · refine (name target owns).bind fun _ _ => (ih (index + 1) _).bind fun result all => ?_
        exact .pure (List.forall_mem_cons.mpr ⟨owns, all⟩)

/-- Stores are attributed alike if the classes that they belong to are found and named alike. -/
theorem attributeStores_alike (entries points : List Int) (stores : List VptrStore) :
    Alike R (fun result => ∀ c ∈ result.2, Owner c) (t.attributeStores ctx v entries points stores)
      (t.attributeStores ctx' v entries points stores) := by
  rw [attributeStores, attributeStores]
  refine (attributeEntries_alike self owner name 0 entries stores).bind fun result all => ?_
  have own : Alike R Any (t.attributeOwn ctx points result.2)
      (t.attributeOwn ctx' points result.2) :=
    (name t self).map fun _ _ => trivial
  exact own.bind fun _ _ => .pure (List.forall_mem_map.mpr all)

end TypeInfo

namespace Consulting

variable {ctx : Context} {relocations : Std.TreeMap Int Relocation} {R : Link}
  {Named Good : TypeInfo → Prop} {Table : TypeInfo → Vtable → Prop}
  (sim : Consulting ctx relocations R Named Good Table)
include sim

/-! ### Attribution of stores -/

/-- The same class is the first whose vtable has the address. -/
theorem firstVtableWith (value : Int) (classes : List TypeInfo) (good : ∀ t ∈ classes, Good t) :
    Alike R (fun found => ∀ t ∈ found, Good t) (Recover.firstVtableWith ctx value classes)
      (Recover.firstVtableWith (ctx.withRelocations relocations) value classes) :=
  (firstVtableWith_alike value fun t member => (sim.vtable (good t member)).any).mono
    fun _ inside t found => good t (inside t found)

/-- A subobject is attributed to the same class, and to a good one. -/
theorem subobjectOwner {t : TypeInfo} (good : Good t) {v : Vtable} (serves : v.Serves Good)
    (value : Int) :
    Alike R Good (t.subobjectOwner ctx v value)
      (t.subobjectOwner (ctx.withRelocations relocations) v value) := by
  -- A class that was found, or else the class itself.
  have orSelf : ∀ {found : Option TypeInfo}, (∀ s ∈ found, Good s) → Good (found.getD t) := by
    intro found goods
    cases found with
    | none => exact good
    | some s => exact goods s rfl
  rw [TypeInfo.subobjectOwner, TypeInfo.subobjectOwner]
  cases v.tableContaining? value with
  | none =>
    refine (sim.ancestors good).bind fun ancestors reached => ?_
    exact (sim.firstVtableWith value ancestors reached).map fun _ => orSelf
  | some index =>
    dsimp only
    have listed : ∀ base, (if index = 0 then none else v.tables[index]?.bind (·.base)) = some base →
        ∃ s, Good s ∧ s.address = base := by
      intro base found
      split at found
      · cases found
      · obtain ⟨table, here, attached⟩ := Option.bind_eq_some_iff.mp found
        exact serves table (List.mem_of_getElem? here) base attached
    revert listed
    cases (if index = 0 then none else v.tables[index]?.bind (·.base)) with
    | none => exact fun _ => .pure good
    | some base =>
      intro listed
      obtain ⟨s, owner, rfl⟩ := listed base rfl
      refine (sim.classAt? s.address).map fun found identified => orSelf fun t member => ?_
      rw [Option.mem_def.mp member] at identified
      exact sim.again owner identified

/-- The stores of a function are attributed alike. -/
theorem attributeStores {t : TypeInfo} (good : Good t) {v : Vtable} (serves : v.Serves Good)
    (entries points : List Int) (stores : List VptrStore) :
    Alike R (fun result => ∀ c ∈ result.2, Good c) (t.attributeStores ctx v entries points stores)
      (t.attributeStores (ctx.withRelocations relocations) v entries points stores) :=
  TypeInfo.attributeStores_alike good (fun value => sim.subobjectOwner good serves value)
    (fun _ owns => sim.name (sim.named owns)) entries points stores

/-- The same address points are looked for. -/
theorem relevantPoints {t : TypeInfo} (good : Good t) :
    Alike R Any (t.relevantPoints ctx) (t.relevantPoints (ctx.withRelocations relocations)) := by
  rw [TypeInfo.relevantPoints, TypeInfo.relevantPoints]
  refine (sim.vtable good).bind fun own _ => ?_
  refine (sim.ancestors good).bind fun ancestors reached => ?_
  have vtables := Alike.mapM (S := Any) reached fun t good => (sim.vtable good).any
  exact vtables.map fun _ _ => trivial

end Consulting

theorem Vtable.addressPoint_mem {v : Vtable} {primary : SubTable}
    (first : v.primary? = some primary) :
    primary.addressPoint ∈ v.addressPoints :=
  List.mem_map_of_mem (List.mem_of_head? first)

/-- Two ways of asking that find alike the stores of functions of which `Candidate` holds.  The
    first way leaves functions out that are not `wanted`; these store none of the address points of
    good classes, of which `Point` holds. -/
structure StoreSimulation (ctx : Context) (relocations : Std.TreeMap Int Relocation)
    (R : Link) (Named Good : TypeInfo → Prop) (Table : TypeInfo → Vtable → Prop)
    (Candidate : Function → Prop) (wanted : Function → Bool) (Point : Int → Prop)
    (detector : Detector) : Prop extends Consulting ctx relocations R Named Good Table where
  /-- The cell with a function's stores. -/
  storesOf : ∀ {f}, Candidate f →
    Alike R Any (Recover.storesOf ctx detector f)
      (Recover.storesOf (ctx.withRelocations relocations) detector f)
  /-- The address points of good classes. -/
  points : ∀ {t v}, Good t → Table t v → ∀ p ∈ v.addressPoints, Point p
  /-- The second way finds no such store in a function that is not wanted. -/
  skip : ∀ {f k k'}, Candidate f → wanted f = false → R.states k k' → ∃ stores l',
    (Recover.checkCancelled (ctx.withRelocations relocations) >>= fun _ =>
      Recover.storesOf (ctx.withRelocations relocations) detector f) k' = .ok stores l' ∧
    R.states k l' ∧ ∀ s ∈ stores, ¬ Point s.value

namespace StoreSimulation

variable {ctx : Context} {relocations : Std.TreeMap Int Relocation} {R : Link}
  {Named Good : TypeInfo → Prop} {Table : TypeInfo → Vtable → Prop}
  {Candidate : Function → Prop} {wanted : Function → Bool} {Point : Int → Prop}
  {detector : Detector}
  (sim : StoreSimulation ctx relocations R Named Good Table Candidate wanted Point detector)
include sim

/-! ### Constructors and destructors -/

/-- A function that is not wanted stores no point that is looked for. Leaving it out changes nothing
    but what is known about it, and states that differ so are linked. -/
theorem assign {t : TypeInfo} (good : Good t) {v : Vtable} (serves : v.Serves Good)
    (entries points : List Int) (inside : ∀ p ∈ points, Point p) (candidates : List Function)
    (known : ∀ f ∈ candidates, Candidate f) :
    Alike R (fun result => ∀ c ∈ result.2, Good c)
      (t.assign ctx v entries points detector (candidates.filter wanted))
      (t.assign (ctx.withRelocations relocations) v entries points detector candidates) := by
  induction candidates with
  | nil => exact .pure (List.forall_mem_nil _)
  | cons f rest ih =>
    obtain ⟨first, others⟩ := List.forall_mem_cons.mp known
    by_cases kept : wanted f = true
    · rw [List.filter_cons_of_pos kept, TypeInfo.assign, TypeInfo.assign]
      refine sim.checkCancelled.bind fun _ _ => ?_
      refine (sim.storesOf first).bind fun stores _ => .ite (fun _ => ih others) fun _ => ?_
      refine (sim.attributeStores good serves entries points stores).bind fun result owners => ?_
      refine (sim.name (sim.named good)).bind fun name _ => (ih others).bind fun more later => ?_
      exact .pure (List.forall_mem_append.mpr ⟨owners, later⟩)
    · rw [List.filter_cons_of_neg kept]
      -- Only the second way asks for the stores of this function, so no rule for two questions
      -- applies and the states are written out.
      intro k k' related
      obtain ⟨stores, l', found, after, unrelated⟩ :=
        sim.skip first (Bool.not_eq_true _ ▸ kept) related
      have none : (!stores.any fun s => points.contains s.value) = true := by
        rw [Bool.not_eq_true', List.any_eq_false]
        intro s member stored
        exact unrelated s member (inside _ (List.contains_iff_mem.mp stored))
      rw [TypeInfo.assign, ← bind_assoc, bind_ok found, if_pos none]
      exact ih others k l' after

/-- Functions are assigned alike to a class by its first table. -/
theorem assignPrimary {t : TypeInfo} (good : Good t) (candidates : List Function)
    (known : ∀ f ∈ candidates, Candidate f) :
    Alike R Any (t.assignPrimary ctx detector (candidates.filter wanted))
      (t.assignPrimary (ctx.withRelocations relocations) detector candidates) := by
  rw [TypeInfo.assignPrimary, TypeInfo.assignPrimary]
  refine (sim.vtable good).bind fun v table => ?_
  have serves := sim.serves good table
  cases first : v.primary? with
  | none => exact .pure trivial
  | some primary =>
    have inside : ∀ p ∈ [primary.addressPoint], Point p := List.forall_mem_singleton.mpr
      (sim.points good table _ (Vtable.addressPoint_mem first))
    refine (sim.assign good serves [] _ inside candidates known).bind fun _ _ => ?_
    exact .pure trivial

omit sim in
/-- It does not matter whether functions are left out before or after others are assigned. -/
theorem unassigned_filter (assignments : List Assignment) (candidates : List Function) :
    unassigned assignments (candidates.filter wanted) =
      (unassigned assignments candidates).filter wanted := by
  rw [unassigned, unassigned, List.filter_filter, List.filter_filter]
  exact List.filter_congr fun f _ => Bool.and_comm _ _

/-- The classes take their functions one after the other, each from those that are left. -/
theorem assignEach (classes : List TypeInfo) (good : ∀ t ∈ classes, Good t)
    (candidates : List Function) (known : ∀ f ∈ candidates, Candidate f) :
    Alike R Any (Recover.assignEach ctx detector classes (candidates.filter wanted))
      (Recover.assignEach (ctx.withRelocations relocations) detector classes candidates) := by
  induction classes generalizing candidates with
  | nil => exact .pure trivial
  | cons t rest ih =>
    obtain ⟨first, others⟩ := List.forall_mem_cons.mp good
    rw [Recover.assignEach, Recover.assignEach]
    refine (sim.assignPrimary first candidates known).bind fun assignments _ => ?_
    rw [unassigned_filter]
    refine (ih others _ fun f member => ?_).map fun _ _ => trivial
    exact known f (List.mem_of_mem_filter member)

/-- **Functions that are not wanted can be left out.** Without them the same functions are assigned.
    -/
theorem correlate {t : TypeInfo} (good : Good t) {v : Vtable} (serves : v.Serves Good)
    (inside : ∀ p ∈ v.addressPoints, Point p) (vtt : Option Vtt) (candidates : List Function)
    (known : ∀ f ∈ candidates, Candidate f) :
    Alike R Any (t.correlate ctx v vtt (candidates.filter wanted) detector)
      (t.correlate (ctx.withRelocations relocations) v vtt candidates detector) := by
  rw [TypeInfo.correlate, TypeInfo.correlate]
  cases first : v.primary? with
  | none => exact .pure trivial
  | some primary =>
    dsimp only
    -- Without entries of a table of vtables only the first address point tells.
    have looked : ∀ p ∈ if ((vtt.map (·.entries)).getD []).isEmpty = true then
        [primary.addressPoint] else v.addressPoints, Point p := by
      split
      · exact List.forall_mem_singleton.mpr (inside _ (Vtable.addressPoint_mem first))
      · exact inside
    refine (sim.assign good serves _ _ looked candidates known).bind fun result owners => ?_
    rw [unassigned_filter]
    refine (sim.assignEach _ (fun c member => ?_) _ fun f member => ?_).map fun _ _ => trivial
    · exact owners c (mem_of_mem_firstOccurrences (List.mem_of_mem_filter member))
    · exact known f (List.mem_of_mem_filter member)

end StoreSimulation

/-! ### Reports -/

/-- The same states, without malformed classes among the faults. -/
def Recover.Link.catching (R : Link) : Link where
  states := R.states
  faults fault := R.faults fault ∧ ∀ what, fault ≠ .malformed what

/-- The report with other parts filled in: it is about the same class. -/
structure ClassReport.SameClass (report next : ClassReport) : Prop where
  /-- The class is at the same address. -/
  address : next.address = report.address
  /-- It describes its bases in the same way. -/
  kind : next.kind = report.kind

/-- What a stage does to a report. -/
structure ClassReport.Extends (report next : ClassReport) : Prop extends
    ClassReport.SameClass report next where
  /-- The error is as it was. -/
  error : next.error = report.error

/-- Stages that answer alike, run one after the other, report alike.  A malformed class becomes
    part of the report; if none can occur, the report has no error that it did not have before. -/
theorem runStages_alike {R : Link} {stages stages' : List (ClassReport → Recover ClassReport)}
    (each : List.Forall₂ (fun s s' => ∀ report : ClassReport, Alike R report.Extends (s report)
      (s' report)) stages stages') (report : ClassReport) :
    Alike R.catching (fun next => report.SameClass next ∧
        ((∀ what, ¬ R.faults (.malformed what)) → next.error = report.error))
      (ClassReport.runStages stages report) (ClassReport.runStages stages' report) := by
  induction each generalizing report with
  | nil => exact .pure ⟨⟨rfl, rfl⟩, fun _ => rfl⟩
  | cons first _ ih =>
    intro k k' related
    rw [ClassReport.runStages, ClassReport.runStages]
    dsimp only
    rcases (first report k k' related).cases with
      ⟨next, l, l', hs, hs', same, after⟩ | ⟨fault, l, l', hs, hs', allowed, after⟩
    · rw [hs, hs']
      refine Alike.mono (fun last good => ⟨?_, fun none => ?_⟩) (ih next) l l' after
      · exact ⟨good.1.address.trans same.address, good.1.kind.trans same.kind⟩
      · exact (good.2 none).trans same.error
    · -- A malformed class is caught here and ends the stages; any other fault goes on.
      rw [hs, hs']
      cases fault
      case malformed what =>
        exact .ok ⟨⟨rfl, rfl⟩, fun none => absurd allowed (none what)⟩ after
      all_goals exact .error ⟨allowed, fun what same => by cases same⟩ after

/-- Two ways of asking all that a report needs; stores are found alike if a detector is given. -/
structure ReportSimulation (ctx : Context) (relocations : Std.TreeMap Int Relocation)
    (R : Link) (Named Good : TypeInfo → Prop) (Table : TypeInfo → Vtable → Prop)
    (Candidate : Function → Prop) (detector : Option Detector) : Prop extends
    Simulation ctx relocations R Named Good Table where
  /-- The cells with the stores of functions. -/
  storesOf : ∀ d ∈ detector, ∀ {f}, Candidate f →
    Alike R Any (Recover.storesOf ctx d f)
      (Recover.storesOf (ctx.withRelocations relocations) d f)
  /-- The index of stores. -/
  functionsStoring : ∀ d ∈ detector, ∀ values,
    Alike R (fun functions => ∀ f ∈ functions, Candidate f)
      (Recover.functionsStoring ctx d values)
      (Recover.functionsStoring (ctx.withRelocations relocations) d values)

namespace ReportSimulation

variable {ctx : Context} {relocations : Std.TreeMap Int Relocation} {R : Link}
  {Named Good : TypeInfo → Prop} {Table : TypeInfo → Vtable → Prop}
  {Candidate : Function → Prop} {detector : Option Detector}
  (sim : ReportSimulation ctx relocations R Named Good Table Candidate detector)
include sim

/-- If all functions are wanted, functions are assigned alike. -/
theorem correlate {d : Detector} (given : d ∈ detector) {t : TypeInfo} (good : Good t) {v : Vtable}
    (serves : v.Serves Good) (vtt : Option Vtt) (candidates : List Function)
    (known : ∀ f ∈ candidates, Candidate f) :
    Alike R Any (t.correlate ctx v vtt candidates d)
      (t.correlate (ctx.withRelocations relocations) v vtt candidates d) := by
  have stores : StoreSimulation ctx relocations R Named Good Table Candidate (fun _ => true) Any
      d :=
    { sim.toConsulting with
      storesOf := sim.storesOf d given
      points := fun _ _ _ _ => trivial
      skip := fun _ unwanted => by cases unwanted }
  have alike := stores.correlate good serves (fun _ _ => trivial) vtt candidates known
  rwa [List.filter_true] at alike

/-- The functions of a class are found alike: candidates by the index of stores, then the
    assignment. -/
theorem assignments {d : Detector} (given : d ∈ detector) {t : TypeInfo} (good : Good t) :
    Alike R Any (t.assignments ctx d) (t.assignments (ctx.withRelocations relocations) d) := by
  rw [TypeInfo.assignments, TypeInfo.assignments]
  refine (sim.vtable good).bind fun v table => (sim.vtt good).bind fun vtt _ => ?_
  refine (sim.relevantPoints good).bind fun points _ => ?_
  refine (sim.functionsStoring d given points).bind fun candidates known => ?_
  exact sim.correlate given good (sim.serves good table) vtt candidates known

/-- Bases are reported alike by their names. -/
theorem baseReport {b : Base} (good : Good b.target) :
    Alike R Any (TypeInfo.baseReport ctx b)
      (TypeInfo.baseReport (ctx.withRelocations relocations) b) :=
  (sim.name (sim.named good)).map fun _ _ => trivial

/-- Each stage answers alike and fills in parts of the report. -/
theorem stages {t : TypeInfo} (good : Good t) :
    List.Forall₂ (fun s s' => ∀ report : ClassReport, Alike R report.Extends (s report) (s' report))
      (t.stages ctx detector) (t.stages (ctx.withRelocations relocations) detector) := by
  rw [TypeInfo.stages, TypeInfo.stages]
  refine .cons (fun report => ?names) (.cons (fun report => ?bases) (.cons (fun report => ?virtual)
    (.cons (fun report => ?vtable) (.cons (fun report => ?abstract) (.cons (fun report => ?vtt)
    (.cons (fun report => ?stores) .nil))))))
  case names =>
    refine (sim.typeName (sim.named good)).bind fun _ _ => ?_
    exact (sim.name (sim.named good)).map fun _ _ => ⟨⟨rfl, rfl⟩, rfl⟩
  case bases =>
    refine (sim.bases good).bind fun bases below => ?_
    exact (Alike.mapM below fun b good => sim.baseReport good).map
      fun _ _ => ⟨⟨rfl, rfl⟩, rfl⟩
  case virtual => exact (sim.virtualBases good).map fun _ _ => ⟨⟨rfl, rfl⟩, rfl⟩
  case vtable =>
    refine (sim.vtable good).map fun v _ => ?_
    split <;> exact ⟨⟨rfl, rfl⟩, rfl⟩
  case abstract => exact (sim.isAbstract good).map fun _ _ => ⟨⟨rfl, rfl⟩, rfl⟩
  case vtt => exact (sim.vtt good).map fun _ _ => ⟨⟨rfl, rfl⟩, rfl⟩
  case stores =>
    cases given : detector with
    | none => exact .pure ⟨⟨rfl, rfl⟩, rfl⟩
    | some d =>
      refine (sim.vtable good).bind fun v _ => .ite (fun _ => ?_) fun _ => .pure ⟨⟨rfl, rfl⟩, rfl⟩
      exact (sim.assignments (Option.mem_def.mpr given) good).map fun _ _ => ⟨⟨rfl, rfl⟩, rfl⟩

/-- The report of a class is the same either way.  It has no error if no malformed class can be
    met. -/
theorem report {t : TypeInfo} (good : Good t) :
    Alike R.catching (fun report => (report.address = t.address ∧ report.kind = t.kind) ∧
        ((∀ what, ¬ R.faults (.malformed what)) → report.error = ""))
      (t.report ctx detector) (t.report (ctx.withRelocations relocations) detector) := by
  rw [TypeInfo.report, TypeInfo.report]
  refine (runStages_alike (sim.stages good) { address := t.address, kind := t.kind }).mono ?_
  exact fun report good => ⟨⟨good.1.address, good.1.kind⟩, good.2⟩

end ReportSimulation

end ItaniumRtti
