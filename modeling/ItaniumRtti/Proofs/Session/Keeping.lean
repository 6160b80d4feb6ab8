import ItaniumRtti.Proofs.Marks
import ItaniumRtti.Proofs.Simulation.Discovery
import ItaniumRtti.Proofs.Simulation.Report
import ItaniumRtti.Session.Basic

namespace ItaniumRtti

/-!
# What the questions of a session keep

Two runs that begin in the same state are one run, so the rules for questions that are answered
alike also tell what a single run keeps.

* `Recover.Keeps` — a question keeps an invariant of knowledge, and its answers satisfy `P`;
* `Context.Upholds`, `Context.UpholdsTables`, `Context.UpholdsCells` — an invariant that survives
  what questions about names and bases, about vtables, and all other questions do to knowledge;
* `Session.recover_keeps` — then every query of a session keeps it.

`Good` holds of the classes that questions are about.
-/

open Recover

namespace Recover

variable {α β : Type} {S : Knowledge → Prop} {P Q : α → Prop} {q : Recover α}

/-- One run through states that satisfy `S`, as two runs through the same states. -/
def Link.holding (S : Knowledge → Prop) : Link :=
  ⟨fun k k' => k = k' ∧ S k, Any⟩

/-- From a state that satisfies `S` the question ends in such a state, and an answer satisfies
    `P`. -/
def Keeps (S : Knowledge → Prop) (P : α → Prop) (q : Recover α) : Prop :=
  Alike (.holding S) P q q

namespace Keeps

/-- How a run of the question ends. -/
theorem ends (keeps : Keeps S P q) {k : Knowledge} (holds : S k) :
    (∃ a after, q k = .ok a after ∧ P a ∧ S after) ∨
      ∃ fault after, q k = .error fault after ∧ S after := by
  rcases (keeps k k ⟨rfl, holds⟩).cases with
    ⟨a, after, _, answered, _, good, _, still⟩ | ⟨fault, after, _, stopped, _, _, _, still⟩
  · exact .inl ⟨a, after, answered, good, still⟩
  · exact .inr ⟨fault, after, stopped, still⟩

/-- An answer satisfies `P`, and the state it leaves satisfies `S`. -/
theorem of_ok (keeps : Keeps S P q) {k after : Knowledge} {a : α} (holds : S k)
    (answered : q k = .ok a after) : P a ∧ S after := by
  rcases keeps.ends holds with ⟨b, l, also, good, still⟩ | ⟨fault, l, also, -⟩
  · cases answered.symm.trans also
    exact ⟨good, still⟩
  · cases answered.symm.trans also

/-- So does the state that a fault leaves. -/
theorem of_error (keeps : Keeps S P q) {k after : Knowledge} {fault : Fault} (holds : S k)
    (stopped : q k = .error fault after) : S after := by
  rcases keeps.ends holds with ⟨b, l, also, -⟩ | ⟨_, l, also, still⟩
  · cases stopped.symm.trans also
  · cases stopped.symm.trans also
    exact still

/-- A computation that needs no knowledge keeps everything. -/
theorem lift (answer : Except Fault α) : Keeps S Any (Recover.lift answer) :=
  Alike.liftAny fun _ _ => trivial

theorem get : Keeps S Any (MonadStateOf.get : Recover Knowledge) := by
  rintro k _ ⟨rfl, holds⟩
  exact .ok trivial ⟨rfl, holds⟩

/-- A change keeps what it is proved to keep. -/
theorem modify {f : Knowledge → Knowledge} (kept : ∀ {k}, S k → S (f k)) :
    Keeps S Any (modify f) := by
  refine Alike.modify ?_
  rintro k _ ⟨rfl, holds⟩
  exact ⟨rfl, kept holds⟩

/-- A question that is remembered.  When its answer is kept, it was not known before. -/
theorem remember {find : Knowledge → Option α} {keep : α → Knowledge → Knowledge}
    (sure : ∀ {k a}, S k → find k = some a → P a) (keeps : Keeps S P q)
    (kept : ∀ {before k a}, S before → find before = none → S k → P a →
      q before = .ok a k → S (keep a k)) :
    Keeps S P (remember find keep q) := by
  rintro k _ ⟨rfl, holds⟩
  rw [Recover.remember, get_bind]
  cases found : find k with
  | some a => exact .ok (sure holds found) ⟨rfl, holds⟩
  | none =>
    dsimp only
    -- Only an answer is put into the cell; a fault leaves it as it is.
    rcases keeps.ends holds with ⟨a, after, answered, good, still⟩ | ⟨fault, after, stopped, still⟩
    · rw [bind_ok answered]
      exact .ok good ⟨rfl, kept holds found still good answered⟩
    · rw [bind_error stopped]
      exact .error trivial ⟨rfl, still⟩

end Keeps

end Recover

namespace Context

variable {ctx : Context} {S : Knowledge → Prop} {Good : TypeInfo → Prop}

/-! ### Names and bases -/

/-- An invariant that survives questions about names and bases. -/
structure Upholds (ctx : Context) (S : Knowledge → Prop) (Good : TypeInfo → Prop) : Prop where
  /-- Recognised classes are good. -/
  good : ∀ {address t}, ctx.roots.identify ctx.image address = .ok (some t) → Good t
  /-- A recognised class may be met. -/
  meet : ∀ {k address t}, ctx.roots.identify ctx.image address = .ok (some t) → S k → S (k.meet t)
  /-- A string may be marked. -/
  mark : ∀ {k} place, S k → S { k with marks := (ctx.image.markString k.marks place).2 }
  /-- A name may be kept that was not known. -/
  named : ∀ {before k t form name}, S before → before.names.find t.address form = none → S k →
    Good t → t.readName ctx form before = .ok name k →
    S { k with names := k.names.insert t.address name form }
  /-- The bases that are known are good. -/
  listed : ∀ {k t bases}, S k → Good t → k.bases[t.address]? = some bases →
    ∀ b ∈ bases, Good b.target
  /-- Bases may be kept that were not known. -/
  read : ∀ {before k t bases}, S before → before.bases[t.address]? = none → S k → Good t →
    (∀ b ∈ bases, Good b.target) → t.readBases ctx before = .ok bases k →
    S { k with bases := k.bases.insert t.address bases }
  /-- The virtual bases that are known are good. -/
  collection : ∀ {k t classes}, S k → Good t → k.virtualBases[t.address]? = some classes →
    ∀ c ∈ classes, Good c
  /-- Virtual bases may be kept that were not known. -/
  collected : ∀ {before k t classes}, S before → before.virtualBases[t.address]? = none → S k →
    Good t → (∀ c ∈ classes, Good c) → t.collectVirtualBases ctx before = .ok classes k →
    S { k with virtualBases := k.virtualBases.insert t.address classes }

/-- Questions that only read the program and meet classes. -/
theorem reading_holding
    (good : ∀ {address t}, ctx.roots.identify ctx.image address = .ok (some t) → Good t)
    (meet : ∀ {k : Knowledge} {address : Int} {t : TypeInfo},
      ctx.roots.identify ctx.image address = .ok (some t) → S k → S (k.meet t)) :
    Reading ctx ctx.image.relocations (.holding S) Good where
  reads := ctx.readsAlike_self
  tolerates := tolerates_any ctx
  good := good
  meet found := by
    rintro ⟨rfl, holds⟩
    exact ⟨rfl, meet found holds⟩

/-- Marking a string changes nothing but marks. -/
theorem markString_holding (mark : ∀ {k : Knowledge} (place : Int), S k →
      S { k with marks := (ctx.image.markString k.marks place).2 }) (place : Int) :
    Keeps S Any (Recover.markString ctx place) := by
  rintro k _ ⟨rfl, holds⟩
  exact .ok trivial ⟨rfl, mark place holds⟩

/-- Nor does reading a name. -/
theorem typeNameAt_holding (mark : ∀ {k : Knowledge} (place : Int), S k →
      S { k with marks := (ctx.image.markString k.marks place).2 }) (address : Int) :
    Keeps S Any (Recover.typeNameAt ctx address) := by
  rw [Recover.typeNameAt]
  refine (Keeps.lift _).bind fun value _ => ?_
  cases value with
  | none => exact .pure trivial
  | some place =>
    refine Keeps.get.bind fun known _ => ?_
    cases known.marks.at? place with
    | some mark => exact .pure trivial
    | none => exact (markString_holding mark place).map fun _ _ => trivial

/-- Questions that besides keep direct bases. -/
theorem following_holding
    (good : ∀ {address t}, ctx.roots.identify ctx.image address = .ok (some t) → Good t)
    (meet : ∀ {k : Knowledge} {address : Int} {t : TypeInfo},
      ctx.roots.identify ctx.image address = .ok (some t) → S k → S (k.meet t))
    (listed : ∀ {k : Knowledge} {t : TypeInfo} {bases : List Base}, S k → Good t →
      k.bases[t.address]? = some bases → ∀ b ∈ bases, Good b.target)
    (read : ∀ {before k : Knowledge} {t : TypeInfo} {bases : List Base}, S before →
      before.bases[t.address]? = none → S k → Good t → (∀ b ∈ bases, Good b.target) →
      t.readBases ctx before = .ok bases k →
      S { k with bases := k.bases.insert t.address bases }) :
    Following ctx ctx.image.relocations (.holding S) Good :=
  (reading_holding good meet).following (fun _ => trivial) fun {t} is keeps => by
    show Alike _ _ (t.bases ctx) (t.bases ctx)
    rw [TypeInfo.bases]
    refine Keeps.remember (fun holds found => listed holds is found) keeps ?_
    -- What is put into the cell of the bases was read in a state with this cell empty.
    intro before k bases earlier new holds targets asked
    exact read earlier new holds is targets asked

namespace Upholds

variable (upholds : ctx.Upholds S Good)
include upholds

/-- Strings are marked within the invariant. -/
theorem markString (place : Int) : Keeps S Any (Recover.markString ctx place) :=
  markString_holding upholds.mark place

/-- Names are read within it. -/
theorem typeNameAt (address : Int) : Keeps S Any (Recover.typeNameAt ctx address) :=
  typeNameAt_holding upholds.mark address

/-- Names are kept within it. -/
theorem nameCell {t : TypeInfo} (good : Good t) (form : NameForm)
    (keeps : Keeps S Any (t.readName ctx form)) : Keeps S Any (t.nameAs ctx form) :=
  Keeps.remember (fun _ _ => trivial) keeps fun earlier new holds _ asked =>
    upholds.named earlier new holds good asked

/-- **The invariant holds through all questions about names and bases.** A single run is compared
    with itself, so that the rules for two runs apply. -/
theorem locating : Locating ctx ctx.image.relocations (.holding S) Good Good where
  toReading := reading_holding upholds.good upholds.meet
  typeNameAt _ := upholds.typeNameAt _
  nameCell form good keeps := upholds.nameCell good form keeps
  nameOf {t} good := by
    refine Alike.bind Keeps.get fun known _ => .ite (fun _ => ?_) fun _ => upholds.typeNameAt _
    exact upholds.nameCell good .mangled (upholds.typeNameAt _)
  toFollowing := following_holding upholds.good upholds.meet upholds.listed upholds.read
  virtualCell {t} good keeps := by
    show Alike _ _ (t.virtualBases ctx) (t.virtualBases ctx)
    rw [TypeInfo.virtualBases]
    refine Keeps.remember (fun holds found => upholds.collection holds good found) keeps ?_
    intro before k classes earlier new holds targets asked
    exact upholds.collected earlier new holds good targets asked
  named good := good

end Upholds

/-! ### Vtables -/

/-- An invariant that survives questions about vtables, too. -/
structure UpholdsTables (ctx : Context) (S : Knowledge → Prop) (Good : TypeInfo → Prop) : Prop
    extends Upholds ctx S Good where
  /-- The vtables that are known serve good classes. -/
  served : ∀ {k t v}, S k → Good t → k.vtables[t.address]? = some v → v.Serves Good
  /-- A vtable may be kept that was not known. -/
  located : ∀ {before k t v}, S before → before.vtables[t.address]? = none → S k → Good t →
    v.Serves Good → t.locateVtable ctx before = .ok v k →
    S { k with vtables := k.vtables.insert t.address v }

/-- Two invariants together. -/
theorem UpholdsTables.and {S' : Knowledge → Prop} (first : ctx.UpholdsTables S Good)
    (second : ctx.UpholdsTables S' Good) : ctx.UpholdsTables (fun k => S k ∧ S' k) Good where
  -- Both invariants are about the same classes.
  good := first.good
  meet found holds := ⟨first.meet found holds.1, second.meet found holds.2⟩
  mark place holds := ⟨first.mark place holds.1, second.mark place holds.2⟩
  named earlier new holds good asked :=
    ⟨first.named earlier.1 new holds.1 good asked, second.named earlier.2 new holds.2 good asked⟩
  listed holds := first.listed holds.1
  read earlier new holds good targets asked :=
    ⟨first.read earlier.1 new holds.1 good targets asked,
      second.read earlier.2 new holds.2 good targets asked⟩
  collection holds := first.collection holds.1
  collected earlier new holds good targets asked :=
    ⟨first.collected earlier.1 new holds.1 good targets asked,
      second.collected earlier.2 new holds.2 good targets asked⟩
  served holds := first.served holds.1
  located earlier new holds good serves asked :=
    ⟨first.located earlier.1 new holds.1 good serves asked,
      second.located earlier.2 new holds.2 good serves asked⟩

/-- It holds through questions about vtables, too. -/
theorem UpholdsTables.consulting (upholds : ctx.UpholdsTables S Good) :
    Consulting ctx ctx.image.relocations (.holding S) Good Good (fun _ v => v.Serves Good) where
  toLocating := upholds.locating
  again _ found := upholds.good found
  vtable {t} good := by
    have located : Keeps S (fun v => v.Serves Good) (t.locateVtable ctx) :=
      (upholds.locating.locateVtable good (.inl trivial)).mono fun _ found => found.serves
    show Alike _ _ (t.vtable ctx) (t.vtable ctx)
    rw [TypeInfo.vtable]
    refine Keeps.remember (fun holds found => upholds.served holds good found) located ?_
    intro before k v earlier new holds serves asked
    exact upholds.located earlier new holds good serves asked
  serves _ serves := serves

/-! ### All questions -/

/-- An invariant that survives every question. -/
structure UpholdsCells (ctx : Context) (S : Knowledge → Prop) (Good : TypeInfo → Prop) : Prop
    extends UpholdsTables ctx S Good where
  /-- A table of vtables may be kept that was not known. -/
  vtt : ∀ {before k t vtt}, S before → before.vtts[t.address]? = none → S k → Good t →
    (t.vtable ctx >>= t.locateVtt ctx) before = .ok vtt k →
    S { k with vtts := k.vtts.insert t.address vtt }
  /-- Any stores may be known. -/
  stores : ∀ {k} book, S k → S { k with stores := book }

namespace UpholdsCells

variable (upholds : ctx.UpholdsCells S Good)
include upholds

/-- **It holds through all questions about classes.** -/
theorem simulation :
    Simulation ctx ctx.image.relocations (.holding S) Good Good (fun _ v => v.Serves Good) where
  toConsulting := upholds.consulting
  searchable _ _ _ _ := .inl trivial
  vttCell {t} good keeps := by
    show Alike _ _ (t.vtt ctx) (t.vtt ctx)
    rw [TypeInfo.vtt]
    refine Keeps.remember (fun _ _ => trivial) keeps ?_
    intro before k vtt earlier new holds _ asked
    exact upholds.vtt earlier new holds good asked

/-- A call of the detector changes nothing but what is known about stores. -/
theorem consult (d : Detector) (f : Function) : Keeps S Any (Recover.consult d f) := by
  rw [Recover.consult]
  refine (Keeps.lift _).bind fun stores _ => ?_
  exact (Keeps.modify fun holds => upholds.stores _ holds).bind fun _ _ => .pure trivial

/-- The stores of a function are found within the invariant. -/
theorem storesOf (d : Detector) (f : Function) : Keeps S Any (Recover.storesOf ctx d f) := by
  rw [Recover.storesOf]
  refine Keeps.get.bind fun known _ => ?_
  cases known.stores.found[f.address]? with
  | some stores => exact .pure trivial
  | none =>
    refine upholds.simulation.checkCancelled.bind fun _ _ => ?_
    refine (upholds.consult d f).bind fun stores _ => ?_
    exact (Keeps.modify fun holds => upholds.stores _ holds).bind fun _ _ => .pure trivial

/-- Functions are assigned within it. -/
theorem correlate (d : Detector) {t : TypeInfo} (good : Good t) {v : Vtable}
    (serves : v.Serves Good) (vtt : Option Vtt) (candidates : List Function) :
    Keeps S Any (t.correlate ctx v vtt candidates d) := by
  -- All functions are wanted, so none is left out.
  have storing : StoreSimulation ctx ctx.image.relocations (.holding S) Good Good
      (fun _ v => v.Serves Good) Any (fun _ => true) Any d :=
    { upholds.consulting with
      storesOf := fun {f} _ => upholds.storesOf d f
      points := fun _ _ _ _ => trivial
      skip := fun _ unwanted => by cases unwanted }
  have alike := storing.correlate good serves (fun _ _ => trivial) vtt candidates
    fun _ _ => trivial
  rwa [List.filter_true] at alike

/-- A question with a store book of its own. -/
theorem withOwnStores {α : Type} {P : α → Prop} {q : Recover α} (keeps : Keeps S P q) :
    Keeps S P (Session.withOwnStores q) := by
  rintro k _ ⟨rfl, holds⟩
  rw [Session.withOwnStores]
  rcases keeps.ends (upholds.stores {} holds) with
    ⟨a, after, answered, good, still⟩ | ⟨fault, after, stopped, still⟩
  · rw [answered]
    exact .ok good ⟨rfl, upholds.stores _ still⟩
  · rw [stopped]
    exact .error trivial ⟨rfl, upholds.stores _ still⟩

end UpholdsCells

end Context

/-! ### Queries -/

namespace Session

/-- What a correlation finds once its detector and its tables are chosen, and the functions looked
    up for it. -/
def correlation (s : Session) (t : TypeInfo) (what : Correlation) (d : Detector)
    (vtt : Option Vtt) (v : Vtable) : Recover Answer := do
  let before := (← get).stores.asked.length
  let assignments ← t.correlate s.context v vtt (what.candidates.getD s.image.functions) d
  let asked := (← get).stores.asked.drop before
  return .assignments assignments (if what.fromCode then [] else asked)

/-- The detector that a correlation asks. -/
def chosenDetector (s : Session) (what : Correlation) : Recover Detector :=
  if what.fromCode then Recover.lift (s.image.detector s.listing defaultFunctionSize)
  else pure s.table

/-- A correlation chooses its detector and its tables and then runs, with the stores that are known
    or with stores of its own. -/
theorem askCorrelation_eq (s : Session) (t : TypeInfo) (what : Correlation) :
    s.askCorrelation t what = (do
      let d ← s.chosenDetector what
      let vtt ← s.chosenVtt t what.vtt
      let v ← s.chosenVtable t what.vtableAt
      if what.shareStores then s.correlation t what d vtt v
      else withOwnStores (s.correlation t what d vtt v)) := by
  rw [askCorrelation, ite_bind]
  rfl

variable {s : Session} {S : Knowledge → Prop} {Good : TypeInfo → Prop}
  (upholds : s.context.UpholdsCells S Good)
include upholds

/-- Choosing a vtable keeps the invariant, and the vtable serves good classes. -/
theorem chosenVtable_keeps {t : TypeInfo} (good : Good t) (choice : Option Int) :
    Keeps S (fun v => v.Serves Good) (s.chosenVtable t choice) := by
  cases choice with
  | none => exact upholds.consulting.vtable good
  | some address =>
    refine Alike.map (upholds.locating.vtableAt? good address) fun found each => ?_
    cases found with
    | none => exact (Vtable.found_missing s.image Good).serves
    | some v => exact (each v rfl).serves

/-- So does the correlation itself. -/
theorem correlation_keeps {t : TypeInfo} (good : Good t) (what : Correlation) (d : Detector)
    (vtt : Option Vtt) {v : Vtable} (serves : v.Serves Good) :
    Keeps S Any (s.correlation t what d vtt v) := by
  refine Keeps.get.bind fun _ _ => ?_
  refine (upholds.correlate d good serves vtt _).bind fun assignments _ => ?_
  exact Keeps.get.map fun _ _ => trivial

/-- And so do both together. -/
theorem askCorrelation_keeps {t : TypeInfo} (good : Good t) (what : Correlation) :
    Keeps S Any (s.askCorrelation t what) := by
  rw [askCorrelation_eq]
  refine Alike.bind (P := Any) ?detector fun d _ => Alike.bind (P := Any) ?vtt fun vtt _ => ?_
  case detector => exact .ite (fun _ => Keeps.lift _) (fun _ => .pure trivial)
  case vtt =>
    cases what.vtt with
    | own => exact upholds.simulation.vtt good
    | without => exact .pure trivial
    | given entries => exact .pure trivial
  refine (chosenVtable_keeps upholds good what.vtableAt).bind fun v serves => ?_
  have found := correlation_keeps upholds good what d vtt serves
  exact .ite (fun _ => found) (fun _ => upholds.withOwnStores found)

/-- Every question about a class keeps the invariant. -/
theorem askClass_keeps {t : TypeInfo} (good : Good t) (question : ClassQuery) :
    Keeps S Any (s.askClass t question) := by
  have all := upholds.simulation
  cases question with
  | typeName => exact (all.typeName good).map fun _ _ => trivial
  | name => exact (all.name good).map fun _ _ => trivial
  | uniqueName =>
    have unique : Keeps S Any (t.uniqueName s.context) := all.nameAs .unique good
    exact unique.map fun _ _ => trivial
  | bases => exact (all.bases good).map fun _ _ => trivial
  | virtualBases => exact (all.virtualBases good).map fun _ _ => trivial
  | ancestors => exact (all.ancestors good).map fun _ _ => trivial
  | baseOffsets => exact (all.baseOffsets good).map fun _ _ => trivial
  | inheritanceFlags => exact (Keeps.lift _).map fun _ _ => trivial
  | isAbstract => exact (all.isAbstract good).map fun _ _ => trivial
  | vtable => exact (all.vtable good).map fun _ _ => trivial
  | vtt => exact (all.vtt good).map fun _ _ => trivial
  | locateVtable => exact (all.locateVtable good (.inl trivial)).map fun _ _ => trivial
  | vtableAt address => exact (all.vtableAt? good address).map fun _ _ => trivial
  | locateVtt vtableAt =>
    refine (chosenVtable_keeps upholds good vtableAt).bind fun v _ => ?_
    exact (all.locateVtt good fun _ _ => .inl trivial).map fun _ _ => trivial
  | vttAt address vtableAt =>
    refine (chosenVtable_keeps upholds good vtableAt).bind fun v _ => ?_
    exact (all.vttAt? good v address).map fun _ _ => trivial
  | correlate what => exact askCorrelation_keeps upholds good what

/-- **Every query keeps the invariant.** -/
theorem recover_keeps (query : Query) : Keeps S Any (s.recover query) := by
  have all := upholds.simulation
  cases query with
  | image question => exact Keeps.lift _
  | ofClass address question =>
    -- The class is recognised first, and it is good then.
    refine (all.classAt? address).bind fun found identified => ?_
    cases found with
    | none => exact .pure trivial
    | some t => exact askClass_keeps upholds (upholds.good identified) question
  | markAt address => exact Keeps.get.map fun _ _ => trivial
  | markString address => exact (upholds.markString address).map fun _ _ => trivial
  | nameAt address =>
    refine (all.identify address).bind fun found identified => ?_
    cases found with
    | none => exact .pure trivial
    | some t => exact (all.nameOf (upholds.good identified)).map fun _ _ => trivial
  | typeNameAt address => exact (upholds.typeNameAt address).map fun _ _ => trivial
  | classAt address => exact (all.classAt? address).map fun _ _ => trivial
  | classes =>
    have met : Keeps S Any Recover.classesMet := Keeps.get.map fun _ _ => trivial
    exact met.map fun _ _ => trivial
  | compare first second =>
    refine (all.identify first).bind fun a _ => (all.identify second).bind fun b _ => ?_
    refine (all.classAt? first).bind fun _ _ => (all.classAt? second).bind fun _ _ => ?_
    exact .pure trivial
  | findTypeInfo cancelled range name =>
    refine (all.findTypeInfo (fun _ => trivial) (fun _ => .inl trivial) range name).bind
      fun found _ => ?_
    cases found with
    | none => exact .pure trivial
    | some t => exact (Keeps.lift _).map fun _ _ => trivial
  | discover =>
    exact (all.discover (fun _ _ => trivial) fun _ _ => .inl trivial).map fun _ _ => trivial
  | cancel => exact .pure trivial
  | checkCancelled => exact all.checkCancelled.bind fun _ _ => .pure trivial
  | setLimit setting v => exact .pure trivial

end Session

end ItaniumRtti
