import ItaniumRtti.Proofs.Correlation.Groups
import ItaniumRtti.Proofs.Hierarchy.Abstract
import ItaniumRtti.Proofs.Vtable.VttRun
import ItaniumRtti.Proofs.Vtable.Within

namespace ItaniumRtti

/-!
# Correlations

* `Context.Tallies` — the invariant of a correlation: vtables serve classes of their hierarchies,
  and the store book agrees with the detector;
* `Context.assign_tallies`, `Context.Tallies.assignEach`, `Context.Tallies.correlate` — the parts of
  a correlation find the groups that they should;
* `Context.Interrupts` — what may stop a correlation;
* `Session.correlate_exact` — so each function is assigned once, and to the right class.
-/

open Recover

namespace Context

variable {ctx : Context} {d : Detector} {known later : Knowledge} {t c : TypeInfo}
  {candidates : List Function} {f : Function}

/-! ### The invariant -/

/-- What holds while a correlation that began in the state `origin` goes on. -/
structure Tallies (ctx : Context) (G : BaseGraph) (d : Detector) (candidates : List Function)
    (origin known : Knowledge) : Prop where
  /-- The graph is the same. -/
  draws : ctx.Draws G known
  /-- Vtables that are kept serve classes of their hierarchies. -/
  within : ctx.TablesWithin known
  /-- Nothing known at the beginning is lost. -/
  grows : origin.Grows known
  /-- The stores that the book has of candidates are those that the detector finds. -/
  agrees : ∀ g ∈ candidates, ∀ stores, known.stores.found[g.address]? = some stores →
    stores = d.onObject g

variable {G : BaseGraph} {origin : Knowledge} {F : Fault → Prop}

/-- A state may be taken as the beginning of what follows. -/
theorem Tallies.anew (tallies : ctx.Tallies G d candidates origin known) :
    ctx.Tallies G d candidates known known :=
  { tallies with grows := .refl known }

/-- What holds from the beginning to a state and from there on holds from the beginning on. -/
theorem Tallies.trans (first : ctx.Tallies G d candidates origin known)
    (second : ctx.Tallies G d candidates known later) : ctx.Tallies G d candidates origin later :=
  { second with grows := first.grows.trans second.grows }

/-- The parts of the invariant that do not concern stores. -/
theorem Tallies.kept (tallies : ctx.Tallies G d candidates origin known) :
    (ctx.Draws G known ∧ ctx.TablesWithin known) ∧ ctx.Grounded known ∧ origin.Grows known :=
  ⟨⟨tallies.draws, tallies.within⟩, tallies.draws.grounded, tallies.grows⟩

/-- Only examining a function changes the stores that are known. -/
theorem Tallies.moved (tallies : ctx.Tallies G d candidates origin known)
    (same : later.stores = known.stores)
    (kept : (ctx.Draws G later ∧ ctx.TablesWithin later) ∧ ctx.Grounded later ∧
      origin.Grows later) : ctx.Tallies G d candidates origin later := by
  obtain ⟨⟨draws, within⟩, -, grows⟩ := kept
  refine ⟨draws, within, grows, ?_⟩
  rw [same]
  exact tallies.agrees

/-- Questions about names, bases and vtables do not touch the stores, so they keep the invariant. -/
theorem upholds_tallies (ctx : Context) (G : BaseGraph) (d : Detector)
    (candidates : List Function) (origin : Knowledge) :
    ctx.UpholdsTables (ctx.Tallies G d candidates origin) ctx.Identified :=
  have both := (ctx.upholds_within G).toUpholdsTables.and
    (ctx.upholds_grows origin).toUpholdsTables
  { good := both.good
    meet := fun found tallies => tallies.moved rfl (both.meet found tallies.kept)
    mark := fun place tallies => tallies.moved rfl (both.mark place tallies.kept)
    named := fun earlier new tallies identified asked =>
      tallies.moved rfl (both.named earlier.kept new tallies.kept identified asked)
    listed := fun tallies => both.listed tallies.kept
    read := fun earlier new tallies identified targets asked =>
      tallies.moved rfl (both.read earlier.kept new tallies.kept identified targets asked)
    collection := fun tallies => both.collection tallies.kept
    collected := fun earlier new tallies identified targets asked =>
      tallies.moved rfl (both.collected earlier.kept new tallies.kept identified targets asked)
    served := fun tallies => both.served tallies.kept
    located := fun earlier new tallies identified serves asked =>
      tallies.moved rfl (both.located earlier.kept new tallies.kept identified serves asked) }

/-- In a well-formed hierarchy the vtables of its classes serve classes of it. -/
theorem consulting_tallies (wellFormed : G.WellFormed t) (tolerates : ctx.Tolerates F)
    (searchable : ∀ c, Relation.ReflTransGen G.Edge t c → ctx.Searchable F c.address)
    (d : Detector) (candidates : List Function) (origin : Knowledge) :
    Consulting ctx ctx.image.relocations (.within (ctx.Tallies G d candidates origin) F)
      ctx.Identified (fun c => ctx.Identified c ∧ Relation.ReflTransGen G.Edge t c)
      (fun _ v => v.Serves fun c => ctx.Identified c ∧ Relation.ReflTransGen G.Edge t c) where
  toLocating := wellFormed.locatingWithin (ctx.upholds_tallies G d candidates origin).toUpholds
    (fun tallies => tallies.draws) tolerates
  again good found := by
    cases good.1.symm.trans found
    exact good
  vtable {c} good := by
    obtain ⟨identified, path⟩ := good
    refine (wellFormed.vtableWithin (ctx.upholds_tallies G d candidates origin)
      (fun tallies => tallies.draws) tolerates identified path (searchable c path)).refine ?_
    intro k v after answered _ still
    by_cases valid : v.isValid = true
    · -- a class of the hierarchy of `c` is one of the hierarchy of `t`
      have within := still.within identified (TypeInfo.hasVtable_of_vtable answered) valid
      obtain ⟨-, serves⟩ := within.serves still.draws identified
      intro table member base attached
      obtain ⟨b, ⟨is, below⟩, address⟩ := serves table member base attached
      exact ⟨b, ⟨is, path.trans below⟩, address⟩
    · -- a vtable without tables serves nothing
      have none : v.tables = [] := by simpa [Vtable.isValid] using valid
      intro table member
      rw [none] at member
      cases member
  serves _ serves := serves

/-! ### Runs -/

/-- The stores of a candidate may be recorded, since no other candidate stands at its address. -/
theorem Tallies.record (tallies : ctx.Tallies G d candidates origin known)
    (distinct : (candidates.map (·.address)).Nodup) (member : f ∈ candidates)
    {all : List VptrStore} (answer : d f = .ok all) :
    ctx.Tallies G d candidates origin
      { known with stores := (known.stores.note f).enter f all } := by
  obtain ⟨draws, within⟩ := (ctx.upholds_within G).stores ((known.stores.note f).enter f all)
    ⟨tallies.draws, tallies.within⟩
  refine ⟨draws, within, { tallies.grows with }, fun g inside stores kept => ?_⟩
  replace kept : (known.stores.found.insert f.address (all.filter (·.onThis)))[g.address]? =
    some stores := kept
  rw [Std.TreeMap.getElem?_insert] at kept
  split at kept
  · next same =>
    -- Candidates are told apart by their addresses, so what is found at this one is the function's
    -- own.
    have is := List.inj_on_of_nodup_map distinct member inside (Std.compare_eq_iff_eq.mp same)
    subst is
    rw [Detector.onObject_of_ok answer]
    exact (Option.some.inj kept).symm
  · exact tallies.agrees g inside stores kept

/-- The stores of a candidate are those that the detector finds. -/
theorem storesOf_tallies (tolerates : ctx.Tolerates F)
    (distinct : (candidates.map (·.address)).Nodup) (member : f ∈ candidates)
    (detects : OnlyFaults F (d f)) :
    Alike (.within (ctx.Tallies G d candidates origin) F) (· = d.onObject f)
      (Recover.storesOf ctx d f) (Recover.storesOf ctx d f) := by
  rintro k _ ⟨rfl, tallies⟩
  unfold Recover.storesOf
  rw [get_bind]
  -- Stores that are in the book agree with the detector; others are asked for and entered.
  cases found : k.stores.found[f.address]? with
  | some stores => exact .ok (tallies.agrees f member stores found) ⟨rfl, tallies⟩
  | none =>
    dsimp only
    by_cases stopped : ctx.cancelled = true
    · have check : checkCancelled ctx k = .error .cancelled k := by
        rw [checkCancelled, if_pos stopped]
        rfl
      rw [bind_error check]
      exact .error (tolerates.cancelled stopped) ⟨rfl, tallies⟩
    rw [checkCancelled_running (Bool.not_eq_true _ ▸ stopped), pure_bind]
    cases answer : d f with
    | error fault =>
      rw [bind_error (consult_error k answer)]
      exact .error (detects fault answer) ⟨rfl, tallies⟩
    | ok all =>
      rw [bind_ok (consult_ok k answer)]
      exact .ok (Detector.onObject_of_ok answer).symm ⟨rfl, tallies.record distinct member answer⟩

section

variable (wellFormed : G.WellFormed t) (tolerates : ctx.Tolerates F)
  (searchable : ∀ c, Relation.ReflTransGen G.Edge t c → ctx.Searchable F c.address)
  (distinct : (candidates.map (·.address)).Nodup) (detects : ∀ f ∈ candidates, OnlyFaults F (d f))
include wellFormed tolerates searchable distinct detects

/-- **The functions of a class** are the candidates that store one of its points. -/
theorem assign_tallies (origin : Knowledge)
    (good : ctx.Identified c ∧ Relation.ReflTransGen G.Edge t c) {v : Vtable}
    (serves : v.Serves fun c => ctx.Identified c ∧ Relation.ReflTransGen G.Edge t c)
    (entries points : List Int) {among : List Function} (part : ∀ f ∈ among, f ∈ candidates) :
    Alike (.within (ctx.Tallies G d candidates origin) F)
      (fun result => result.1.map (·.function) = among.filter (storesOneOf d points) ∧
        (∀ a ∈ result.1, a.classAddress = c.address ∧
          a.role = .ofFunction ctx.demangle a.function) ∧
        ∀ b ∈ result.2, ctx.Identified b ∧ Relation.ReflTransGen G.Edge t b)
      (c.assign ctx v entries points d among) (c.assign ctx v entries points d among) := by
  have sim := consulting_tallies wellFormed tolerates searchable d candidates origin
  -- by induction on the candidates; what is known changes from one to the next, but not what the
  -- invariant says of their stores
  induction among with
  | nil => exact .pure ⟨rfl, List.forall_mem_nil _, List.forall_mem_nil _⟩
  | cons f rest ih =>
    obtain ⟨first, others⟩ := List.forall_mem_cons.mp part
    rw [TypeInfo.assign]
    refine Alike.bind sim.checkCancelled fun _ _ => ?_
    refine (storesOf_tallies tolerates distinct first (detects f first)).bind ?_
    rintro stores rfl
    refine .ite (fun none => ?_) fun some => ?_
    · -- the candidate stores none of the points
      have skipped : storesOneOf d points f = false := (Bool.not_eq_true' _).mp none
      rw [List.filter_cons_of_neg (by rw [skipped]; exact Bool.false_ne_true)]
      exact ih others
    · have taken : storesOneOf d points f = true := storesOneOf_iff.mpr (by simpa using some)
      rw [List.filter_cons_of_pos taken]
      refine Alike.bind (sim.attributeStores good serves entries points _) fun result owners => ?_
      refine Alike.bind (sim.name good.1) fun name _ => (ih others).bind fun more found => ?_
      obtain ⟨functions, own, classes⟩ := found
      refine .pure ⟨?_, ?_, ?_⟩
      · rw [List.map_cons, functions]
      · exact List.forall_mem_cons.mpr ⟨⟨rfl, rfl⟩, own⟩
      · exact List.forall_mem_append.mpr ⟨owners, classes⟩

/-- The functions that store the primary address point of a class. -/
theorem Tallies.assignPrimary (tallies : ctx.Tallies G d candidates origin known)
    (good : ctx.Identified c ∧ Relation.ReflTransGen G.Edge t c) {among : List Function}
    (part : among.Sublist candidates) :
    Ends F (fun group after => ctx.Tallies G d candidates origin after ∧
      ∃ v, after.HasVtable c.address v ∧ ctx.Collects d c (v.tellingPoints none) among group)
      (c.assignPrimary ctx d among known) := by
  have sim := consulting_tallies wellFormed tolerates searchable d candidates origin
  have vtable : Alike (.within (ctx.Tallies G d candidates origin) F) _ (c.vtable ctx)
    (c.vtable ctx) := sim.vtable good
  rw [TypeInfo.assignPrimary]
  refine (vtable.endsWithin tallies).bind ?_
  rintro v middle ⟨answered, serves, there⟩
  have has := TypeInfo.hasVtable_of_vtable answered
  have apart := (part.map (·.address)).nodup distinct
  cases first : v.primary? with
  | none =>
    have points : v.tellingPoints none = [] := by simp [Vtable.tellingPoints, first]
    refine .ok ⟨there, v, has, ?_⟩
    rw [points]
    exact .nothing among
  | some primary =>
    have points : v.tellingPoints none = [primary.addressPoint] := by
      simp [Vtable.tellingPoints, first]
    -- the invariant begins anew here, so that the vtable is still known after the stores have been
    -- examined
    have assign := assign_tallies wellFormed tolerates searchable distinct detects middle good
      serves [] [primary.addressPoint] fun f member => part.subset member
    refine (assign.endsWithin there.anew).bind ?_
    rintro result after ⟨-, ⟨functions, own, -⟩, still⟩
    refine .ok ⟨there.trans still, v, still.grows.vtables has, ?_⟩
    rw [points]
    exact .of_assignments functions (fun a member => (own a member).1)
      (fun a member => (own a member).2) apart

/-- **The groups of several classes,** by induction on the classes. -/
theorem Tallies.assignEach (tallies : ctx.Tallies G d candidates origin known)
    {classes : List TypeInfo}
    (good : ∀ c ∈ classes, ctx.Identified c ∧ Relation.ReflTransGen G.Edge t c)
    {among : List Function} (part : among.Sublist candidates) :
    Ends F (fun found after => ctx.Tallies G d candidates origin after ∧
      ∃ groups, found = groups.flatten ∧ ctx.Shares d
        (fun c points => ∃ v, after.HasVtable c.address v ∧ points = v.tellingPoints none)
        classes among groups)
      (Recover.assignEach ctx d classes among known) := by
  induction classes generalizing known among origin with
  | nil => exact .ok ⟨tallies, [], rfl, .nil⟩
  | cons c rest ih =>
    obtain ⟨first, others⟩ := List.forall_mem_cons.mp good
    rw [Recover.assignEach]
    refine (tallies.assignPrimary wellFormed tolerates searchable distinct detects first part).bind
      ?_
    rintro group middle ⟨there, v, has, collects⟩
    -- Later questions may learn more, but the vtable of the first class stays what it was.
    refine (ih there.anew others (unassigned_sublist.trans part)).bind ?_
    rintro found after ⟨still, groups, rfl, shares⟩
    exact .ok ⟨there.trans still, group :: groups, rfl,
      .cons ⟨v, still.grows.vtables has, rfl⟩ collects shares⟩

/-- **A correlation gives these groups.** -/
theorem Tallies.correlate (tallies : ctx.Tallies G d candidates origin known)
    (identified : ctx.Identified t) {v : Vtable} (valid : v.isValid = true)
    (serves : v.Serves fun c => ctx.Identified c ∧ Relation.ReflTransGen G.Edge t c)
    (vtt : Option Vtt) :
    Ends F (fun found after => ∃ own bases groups, found = own ++ groups.flatten ∧
      ctx.Correlates G t v vtt candidates d after own bases groups)
      (t.correlate ctx v vtt candidates d known) := by
  obtain ⟨primary, first⟩ := Vtable.exists_primary valid
  rw [TypeInfo.correlate, first]
  dsimp only
  rw [Vtable.tellingPoints_eq first]
  have assign := assign_tallies wellFormed tolerates searchable distinct detects
    origin ⟨identified, .refl⟩ serves ((vtt.map (·.entries)).getD []) (v.tellingPoints vtt)
    fun f member => member
  refine (assign.endsWithin tallies).bind ?_
  rintro ⟨assignments, classes⟩ middle ⟨answered, ⟨functions, owned, goods⟩, there⟩
  have attributes : t.Attributes (assignments.flatMap (·.stores)) classes :=
    TypeInfo.assign_attributes _ _ _ _ _ answered
  have collects : ctx.Collects d t (v.tellingPoints vtt) candidates
      (assignments.mergeSort Assignment.le) :=
    .of_assignments functions (fun a member => (owned a member).1)
      (fun a member => (owned a member).2) distinct
  have all : ∀ c ∈ classes, ctx.Identified c := fun c member => (goods c member).1
  have listed : ∀ b ∈ t.others classes, b ∈ classes ∧ b.address ≠ t.address :=
    fun b member => (TypeInfo.mem_others_iff all).mp member
  -- what is left goes to the other classes that the stores were attributed to
  refine (there.assignEach wellFormed tolerates searchable distinct detects
    (fun b member => goods b (listed b member).1) unassigned_sublist).bind ?_
  rintro more after ⟨still, groups, rfl, shares⟩
  refine .ok ⟨assignments.mergeSort Assignment.le, t.others classes, groups, rfl,
    .of_shares distinct (.cons (.inl ⟨rfl, rfl⟩) collects ?_) (fun b member => (listed b member).2)
      ?_ (t.nodup_others classes) ?_⟩
  · -- sorting the own functions does not change what is left
    rw [unassigned_perm (List.mergeSort_perm assignments _)]
    refine shares.mono fun b member points tells => .inr ⟨?_, tells⟩
    rintro rfl
    exact (listed b member).2 rfl
  · exact fun b member => (goods b (listed b member).1).2
  · intro b identified
    simp only [List.mem_mergeSort]
    exact attributes.mem_others_iff all identified

end

/-- What may stop a correlation: the question for the vtable of a class of the hierarchy, or the
    search for the stores of a candidate. -/
inductive Interrupts (ctx : Context) (G : BaseGraph) (t : TypeInfo) (d : Detector)
    (candidates : List Function) : Fault → Prop where
  | vtable {c : TypeInfo} {fault : Fault} : Relation.ReflTransGen G.Edge t c →
      ctx.Obstructs c fault → Interrupts ctx G t d candidates fault
  | detector {f : Function} {fault : Fault} : f ∈ candidates → d f = .error fault →
      Interrupts ctx G t d candidates fault

/-- These faults cover all that reading words can meet. -/
theorem tolerates_interrupts : ctx.Tolerates (ctx.Interrupts G t d candidates) where
  cancelled stopped := .vtable .refl (.cancelled stopped)
  byteOrder unknown := .vtable .refl (.byteOrder unknown)
  unfitLimit unfit := .vtable .refl (.unfitLimit unfit)

end Context

namespace Session

/-- **A correlation assigns each function once, and to the right class.**  Its vtable is one that
    the session gave for the class before, its table of vtables may be any, and the stores that are
    known already are those that the detector finds.  A candidate belongs to the class if and only
    if it stores one of its address points, which are all of the vtable's with a table of vtables,
    and the primary one without; otherwise it belongs to another class only if this is an ancestor
    whose own primary address point it stores.  The group of the class comes first and is followed
    by one for each of the bases, with constructors before destructors and each by address. -/
theorem correlate_exact (image : Image) (demangle : Demangler) (limits : Limits)
    (detector : Detector) (listing : Listing) (before between : List Query) (t : TypeInfo)
    (question : ClassQuery) (v : Vtable) (vtt : Option Vtt) (candidates : List Function)
    (d : Detector) (book : StoreBook) :
    let asked := (start image demangle limits detector listing).after before
    let s := asked.after (.ofClass t.address question :: between)
    let ctx := s.context
    let G := ctx.graph s.known
    let known := { s.known with stores := book }
    ctx.Identified t →
    (asked.ask (.ofClass t.address question)).1 = .ok (.vtable (some v)) → v.isValid = true →
    (candidates.map (·.address)).Nodup →
    (∀ f ∈ candidates, ∀ stores, book.found[f.address]? = some stores → stores = d.onObject f) →
    (∃ own bases groups after,
      t.correlate ctx v vtt candidates d known = .ok (own ++ groups.flatten) after ∧
      ctx.Correlates G t v vtt candidates d after own bases groups) ∨
    ∃ fault after, t.correlate ctx v vtt candidates d known = .error fault after ∧
      ctx.Interrupts G t d candidates fault := by
  intro asked s ctx G known identified given valid distinct agrees
  have begins := grounded_start image demangle limits detector listing
  have all := tablesWithin_start image demangle limits detector listing
  obtain ⟨grounded, -⟩ := after_leads begins before
  obtain ⟨still, leads⟩ := after_leads grounded (.ofClass t.address question :: between)
  have earlier : asked.context.Identified t := (leads.identify t.address).symm.trans identified
  -- The vtable was given earlier in the session, so its tables serve classes of the hierarchy as it
  -- is known now.
  have within : v.Within ctx s.known t :=
    within_of_given grounded (after_tablesWithin begins all before) earlier given valid between
  have draws : ctx.Draws G s.known := still.draws
  have tables : ctx.TablesWithin s.known :=
    after_tablesWithin grounded (after_tablesWithin begins all before) _
  obtain ⟨wellFormed, serves⟩ := within.serves draws identified
  obtain ⟨draws', tables'⟩ := (ctx.upholds_within G).stores book ⟨draws, tables⟩
  have tallies : ctx.Tallies G d candidates known known :=
    ⟨draws', tables', .refl known, agrees⟩
  have ends := tallies.correlate wellFormed Context.tolerates_interrupts
    (fun c path => (ctx.searchable_obstructs c).imp_left (.vtable path))
    distinct (fun f member fault answer => .detector member answer) identified valid serves vtt
  generalize t.correlate ctx v vtt candidates d known = result at ends ⊢
  cases ends with
  | ok found =>
    obtain ⟨own, bases, groups, rfl, correlates⟩ := found
    exact .inl ⟨own, bases, groups, _, rfl, correlates⟩
  | error interrupts => exact .inr ⟨_, _, rfl, interrupts⟩

end Session

/-- The data of a program with a class and a base of it: their type_infos, the vtable of the class
    after 32 bytes, with a table for the base, and the vtable of the base after 56. -/
def Block.sampleParts : Block where
  name := ".data"
  start := 0x400000
  data := ⟨(([0x500008, 0, 0x500108, 0, 0, 1, 0x400000, 0x402,
      0, 0x400008, 0x600000, 0xfffffffc, 0x400008, 0x600000, 0, 0x400000, 0x600000] :
      List Nat).flatMap (littleBytes 4)).toArray⟩
  size := 68

/-- The program with the two classes. -/
def Image.sampleParts : Image :=
  { Image.sampleInherited with
    blocks := [.sampleParts, .sampleCode]
    ordered := by decide }

/-- The vtable of the class. -/
def Vtable.sampleParts : Vtable where
  address := 0x400020
  typeInfo := 0x400008
  tables :=
    [{ start := 0x400020, header := 0x400020, addressPoint := 0x400028, vcallOffsets := [],
       entries := [.offsetToTop 0, .typeInfo 0x400008, .slot { address := some 0x600000 }] },
     { start := 0x40002c, header := 0x40002c, addressPoint := 0x400034, vcallOffsets := [],
       entries := [.offsetToTop (-4), .typeInfo 0x400008, .slot { address := some 0x600000 }],
       base := some 0x400000 }]
  stop := 0x400038

/-- Its table of vtables. -/
def Vtt.sampleParts : Vtt where
  address := 0x400044
  typeInfo := 0x400008
  entries := [0x400028, 0x400034]

/-- Functions of the program: a destructor, a constructor, a constructor of the base, and one that
    makes an object of its own. -/
def Image.candidatesParts : List Function :=
  [{ address := 0x600000, name := "~D" }, { address := 0x600004 }, { address := 0x600008 },
    { address := 0x60000c }]

/-- What they store. -/
def Detector.sampleParts : Detector :=
  .ofTable [(0x600000, [{ site := 1, value := 0x400034 }]),
    (0x600004, [{ site := 2, value := 0x400028 }, { site := 3, value := 0x400040 }]),
    (0x600008, [{ site := 4, value := 0x400040 }]),
    (0x60000c, [{ site := 5, value := 0x400040, onThis := false }])]

/-- The destructor as a function of the class.  Its store is attributed to the base. -/
def Assignment.destructorParts : Assignment where
  function := { address := 0x600000, name := "~D" }
  classAddress := 0x400008
  className := ""
  role := .destructor
  stores := [{ site := 1, value := 0x400034, classAddress := 0x400000, className := "",
               vttIndex := some 1 }]

/-- The constructor as a function of the class. -/
def Assignment.constructorParts : Assignment where
  function := { address := 0x600004 }
  classAddress := 0x400008
  className := ""
  role := .constructor
  stores := [{ site := 2, value := 0x400028, classAddress := 0x400008, className := "",
               vttIndex := some 0 }]

/-- The constructor of the base as a function of the base. -/
def Assignment.baseParts : Assignment where
  function := { address := 0x600008 }
  classAddress := 0x400000
  className := ""
  role := .constructor
  stores := [{ site := 4, value := 0x400040, classAddress := 0x400000, className := "" }]

namespace Session

/-- A session about that program, in which the vtable of the base was asked for and then that of the
    class was read. -/
def sampleParts (t : TypeInfo) : Session :=
  ((start .sampleParts (fun _ => none) {} (.ofTable []) []).after [.ofClass 0x400000 .vtable]).after
    [.ofClass t.address (.vtableAt 0x400020)]

/-- The functions are found in the order of the candidates, and put in order by group. -/
theorem sampleParts_correlate :
    let s := sampleParts ⟨0x400008, .general⟩
    ∃ after, TypeInfo.correlate s.context ⟨0x400008, .general⟩ .sampleParts (some .sampleParts)
      Image.candidatesParts .sampleParts { s.known with stores := {} } =
        .ok [.constructorParts, .destructorParts, .baseParts] after := by
  intro s
  -- The sort of the groups does not compute in the kernel, so the run is taken apart around it.
  have computed : (do
      let own ← TypeInfo.assign s.context ⟨0x400008, .general⟩ .sampleParts
        Vtt.sampleParts.entries Vtable.sampleParts.addressPoints .sampleParts Image.candidatesParts
      let w ← TypeInfo.vtable s.context ⟨0x400000, .simple⟩
      let others ← TypeInfo.assign s.context ⟨0x400000, .simple⟩ w [] [0x400040] .sampleParts
        (unassigned own.1 Image.candidatesParts)
      return (own, w.primary?.map (·.addressPoint), others.1) : Recover _).run'
        { s.known with stores := {} } =
      some (([Assignment.destructorParts, .constructorParts],
        [(⟨0x400000, .simple⟩ : TypeInfo), ⟨0x400008, .general⟩]), some 0x400040,
        [Assignment.baseParts]) := by decide +kernel
  obtain ⟨after, answered⟩ := run'_eq_some_iff.mp computed
  obtain ⟨own, k, assigned, answered⟩ := of_bind_ok answered
  obtain ⟨w, l, asked, answered⟩ := of_bind_ok answered
  obtain ⟨others, m, more, answered⟩ := of_bind_ok answered
  injection answered with found last
  injection found with first second
  injection second with point base
  subst first
  obtain ⟨primary, begins, address⟩ := Option.map_eq_some_iff.mp point
  have ordered : [Assignment.destructorParts, .constructorParts].mergeSort Assignment.le =
      [.constructorParts, .destructorParts] := by
    simp [List.mergeSort, List.MergeSort.Internal.splitInTwo, Assignment.le,
      Assignment.destructorParts, Assignment.constructorParts]
  have group : TypeInfo.assignPrimary s.context ⟨0x400000, .simple⟩ .sampleParts
      (unassigned [.destructorParts, .constructorParts] Image.candidatesParts) k =
        .ok [.baseParts] m := by
    rw [TypeInfo.assignPrimary, bind_ok asked, begins]
    dsimp only
    rw [address, bind_ok more, base, List.mergeSort_singleton]
    rfl
  have groups : assignEach s.context .sampleParts [⟨0x400000, .simple⟩]
      (unassigned [.destructorParts, .constructorParts] Image.candidatesParts) k =
        .ok [.baseParts] m := by
    rw [assignEach, bind_ok group]
    rfl
  refine ⟨m, (bind_ok assigned).trans ((bind_ok groups).trans ?_)⟩
  rw [ordered]
  rfl

/-- With a table of vtables the destructor belongs to the class, though it stores the pointer of the
    second table only.  It comes after the constructor, and after both comes the constructor of the
    base; the function that makes an object of its own belongs to no class. -/
theorem correlate_exact_sampleParts :
    let s := sampleParts ⟨0x400008, .general⟩
    ∃ own bases groups after,
      TypeInfo.correlate s.context ⟨0x400008, .general⟩ .sampleParts (some .sampleParts)
        Image.candidatesParts .sampleParts { s.known with stores := {} } =
          .ok (own ++ groups.flatten) after ∧
      s.context.Correlates (s.context.graph s.known) ⟨0x400008, .general⟩ .sampleParts
        (some .sampleParts) Image.candidatesParts .sampleParts after own bases groups ∧
      own ++ groups.flatten = [.constructorParts, .destructorParts, .baseParts] := by
  intro s
  have earlier : ((start .sampleParts (fun _ => none) {} (.ofTable []) []).after
      [.ofClass 0x400000 .vtable]).context.Identified ⟨0x400008, .general⟩ := by
    unfold Context.Identified
    decide +kernel
  obtain ⟨given, same⟩ := after_vtableAt earlier (show
    (TypeInfo.vtableAt? _ _ 0x400020).run' _ = some (some .sampleParts) by decide +kernel)
  have identified : s.context.Identified ⟨0x400008, .general⟩ := by
    rw [show s.context = _ from same]
    exact earlier
  have unwritten : ∀ f ∈ Image.candidatesParts, ∀ stores,
      ({} : StoreBook).found[f.address]? = some stores →
        stores = Detector.sampleParts.onObject f := by
    intro f _ stores kept
    simp at kept
  have ends := correlate_exact .sampleParts (fun _ => none) {} (.ofTable []) []
    [.ofClass 0x400000 .vtable] [] ⟨0x400008, .general⟩ (.vtableAt 0x400020) .sampleParts
    (some .sampleParts) Image.candidatesParts .sampleParts {} identified given (by decide)
    (by decide) unwritten
  rw [show ((start .sampleParts (fun _ => none) {} (.ofTable []) []).after _).after _ = s from rfl]
    at ends
  obtain ⟨last, answered⟩ := sampleParts_correlate
  rcases ends with ⟨own, bases, groups, after, asked, correlates⟩ | ⟨fault, after, stopped, -⟩
  · refine ⟨own, bases, groups, after, asked, correlates, ?_⟩
    injection asked.symm.trans answered
  · cases answered.symm.trans stopped

end Session

end ItaniumRtti
