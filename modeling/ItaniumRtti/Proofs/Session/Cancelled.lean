import ItaniumRtti.Proofs.Session.Lasting

namespace ItaniumRtti

/-!
# Stopped sessions

Stopping is cooperative: a search checks at its end, and every loop over tables, entries, addresses
or functions checks before it goes on.  No result gets past these checks.

* `Recover.Yields` — what can be said of every answer of a question, whatever is known;
* `Context.locateVtable_stopped`, `Context.locateVtt_stopped`, `Context.discover_stopped`, … — what
  a stopped search can still answer;
* `Context.upholds_stopped` — no vtable is kept any more, and no table of vtables;
* `Session.nothing_new` — a stopped session recovers nothing new, and still tells what it knows.
-/

open Recover

namespace Recover

variable {α β : Type} {P : α → Prop} {Q : β → Prop} {q : Recover α} {f : α → Recover β}

/-- Every answer of the question satisfies `P`, whatever is known. -/
def Yields (P : α → Prop) (q : Recover α) : Prop :=
  ∀ ⦃known a after⦄, q known = .ok a after → P a

/-- The question is never answered. -/
def Never (q : Recover α) : Prop :=
  Yields (fun _ => False) q

namespace Yields

theorem pure {a : α} (holds : P a) : Yields P (pure a) := by
  intro known b after answered
  cases answered
  exact holds

theorem any (q : Recover α) : Yields Any q :=
  fun _ _ _ _ => trivial

/-- A computation that needs no knowledge. -/
theorem lift {answer : Except Fault α} (holds : ∀ a, answer = .ok a → P a) :
    Yields P (lift answer) := by
  intro known a after answered
  cases answer with
  | ok b =>
    cases answered
    exact holds a rfl
  | error fault => cases answered

/-- Two such computations, one after the other; only what the second gives is an answer. -/
theorem liftBind {answer : Except Fault α} {next : α → Except Fault β}
    (second : ∀ a, Yields Q (Recover.lift (next a))) :
    Yields Q (Recover.lift (answer >>= next)) := by
  cases answer with
  | ok a => exact second a
  | error fault => exact fun _ _ _ answered => by cases answered

theorem bind (first : Yields P q) (second : ∀ a, P a → Yields Q (f a)) : Yields Q (q >>= f) := by
  intro known b after answered
  obtain ⟨a, middle, asked, answered⟩ := of_bind_ok answered
  exact second a (first asked) answered

/-- A question asked after any other. -/
theorem andThen (second : ∀ a, Yields Q (f a)) : Yields Q (q >>= f) :=
  (any q).bind fun a _ => second a

/-- Whichever way a choice goes. -/
theorem ite {c : Prop} [Decidable c] {r : Recover α} (yes : Yields P q) (no : Yields P r) :
    Yields P (if c then q else r) := by
  split
  · exact yes
  · exact no

end Yields

/-- What follows a question that is never answered may be anything. -/
theorem Never.bind (never : Never q) (f : α → Recover β) : Yields Q (q >>= f) :=
  Yields.bind never fun _ impossible => impossible.elim

end Recover

/-! ### Searches -/

/-- If no second step gives an answer, neither do both together. -/
theorem bind_ne_ok {α β : Type} {answer : Except Fault α} {f : α → Except Fault β} {b : β}
    (second : ∀ a, f a ≠ .ok b) : (answer >>= f) ≠ .ok b := by
  cases answer with
  | ok a => exact second a
  | error fault => exact fun answered => by cases answered

/-- A stopped search for references is never answered: if the data has no range to search, it
    stops at its end. -/
theorem Image.findReferences_stopped (img : Image) (target alignment : Int) (found : List Int) :
    img.findReferences true target alignment ≠ .ok found := by
  -- whatever the hits are, the search ends with one of two faults
  have ends : ∀ hits : List Int,
      (if decide (alignment = 0) && !(hits.isEmpty && img.relocations.isEmpty) then
        .error .zeroAlignment
      else .error .cancelled : Except Fault (List Int)) ≠ .ok found := by
    intro hits
    split <;> exact fun answered => by cases answered
  rw [findReferences]
  split
  · exact bind_ne_ok fun pattern => bind_ne_ok ends
  · exact bind_ne_ok fun pattern => bind_ne_ok ends

namespace Context

variable {ctx : Context} (stopped : ctx.cancelled = true)
include stopped

/-- A stopped session does not get past the question whether to stop. -/
theorem checkCancelled_stopped : Never (checkCancelled ctx) := by
  intro known a after answered
  rw [checkCancelled, if_pos stopped] at answered
  cases answered

/-- No search for references is answered. -/
theorem references_stopped (target : Int) :
    Never (lift (ctx.image.findReferences ctx.cancelled target ctx.image.ptr)) := by
  rw [stopped]
  exact Yields.lift fun found answered =>
    ctx.image.findReferences_stopped target ctx.image.ptr found answered

/-! ### Vtables -/

/-- Not even one table of a group is read. -/
theorem tablesFrom_stopped (g : Group) (count : Nat) (first : Bool) (address : Int) :
    Never (g.tablesFrom ctx (count + 1) first address) := by
  rw [Group.tablesFrom]
  exact (checkCancelled_stopped stopped).bind _

/-- No vtable is read at an address. -/
theorem vtableAt?_stopped (t : TypeInfo) (address : Int) :
    Yields (· = none) (t.vtableAt? ctx address) := by
  rw [TypeInfo.vtableAt?]
  cases (ctx.image.blockAt? address).filter (·.initialized) with
  | none => exact .pure rfl
  | some block =>
    refine .andThen fun secondaries => ?_
    -- one table at least is to be read, and a check comes first
    cases secondaries with
    | true =>
      refine .andThen fun ancestors => ?_
      rw [pure_bind, Nat.add_comm]
      exact (tablesFrom_stopped stopped _ ancestors.length true address).bind _
    | false => exact (tablesFrom_stopped stopped _ 0 true address).bind _

/-- A symbol leads to no vtable. -/
theorem vtableBySymbol?_stopped (t : TypeInfo) : Yields (· = none) (t.vtableBySymbol? ctx) := by
  rw [TypeInfo.vtableBySymbol?]
  refine .andThen fun name => .ite (.pure rfl) ?_
  cases ctx.image.symbolAddress? (vtablePrefix ++ name) with
  | none => exact .pure rfl
  | some address => exact vtableAt?_stopped stopped t address

/-- No vtable is located, not even a missing one. -/
theorem locateVtable_stopped (t : TypeInfo) : Never (t.locateVtable ctx) := by
  rw [TypeInfo.locateVtable]
  refine (vtableBySymbol?_stopped stopped t).bind fun found missing => ?_
  subst missing
  exact (references_stopped stopped t.address).bind _

/-! ### Tables of vtables -/

/-- No entry is read. -/
theorem vttEntries_stopped (block : Block) (regions : List AddressRange) (count : Nat)
    (first : Bool) (address : Int) :
    Yields (· = []) (vttEntries ctx block regions count first address) := by
  cases count with
  | zero => exact .pure rfl
  | succ count =>
    rw [vttEntries]
    exact .ite (.pure rfl) ((checkCancelled_stopped stopped).bind _)

/-- No table of vtables is read. -/
theorem vttAt?_stopped (t : TypeInfo) (v : Vtable) (address : Int) :
    Yields (· = none) (t.vttAt? ctx v address) := by
  rw [TypeInfo.vttAt?]
  refine .andThen fun virtuals => .ite (.pure rfl) ?_
  cases v.primary? with
  | none => exact .pure rfl
  | some primary =>
    cases ctx.image.blockAt? address with
    | none => exact .pure rfl
    | some block =>
      refine .andThen fun regions => .andThen fun most => ?_
      refine (vttEntries_stopped stopped block regions most true address).bind ?_
      -- a table of vtables has a first entry
      rintro _ rfl
      exact .pure rfl

/-- A symbol leads to none either. -/
theorem vttBySymbol?_stopped (t : TypeInfo) (v : Vtable) :
    Yields (· = none) (t.vttBySymbol? ctx v) := by
  rw [TypeInfo.vttBySymbol?]
  refine .andThen fun name => .ite (.pure rfl) ?_
  cases ctx.image.symbolAddress? (vttPrefix ++ name) with
  | none => exact .pure rfl
  | some address => exact vttAt?_stopped stopped t v address

/-- No table of vtables is located. -/
theorem locateVtt_stopped (t : TypeInfo) (v : Vtable) : Yields (· = none) (t.locateVtt ctx v) := by
  rw [TypeInfo.locateVtt]
  cases v.primary? with
  | none => exact .pure rfl
  | some primary =>
    refine .andThen fun virtuals => .ite (.pure rfl) ?_
    refine (vttBySymbol?_stopped stopped t v).bind fun found missing => ?_
    subst missing
    exact (references_stopped stopped primary.addressPoint).bind _

/-! ### Classes and functions -/

/-- No class is recognised among given addresses. -/
theorem classesAmong_stopped (addresses : List Int) :
    Yields (· = []) (classesAmong ctx addresses) := by
  cases addresses with
  | nil => exact .pure rfl
  | cons address rest =>
    rw [classesAmong]
    exact (checkCancelled_stopped stopped).bind _

/-- No class is discovered. -/
theorem discover_stopped : Yields (· = []) (discover ctx) := by
  rw [discover]
  refine .andThen fun named => ?_
  split
  · exact .andThen fun scanned => classesAmong_stopped stopped _
  · exact .andThen fun scanned => classesAmong_stopped stopped _

/-- No function is assigned to a class. -/
theorem assign_stopped (t : TypeInfo) (v : Vtable) (entries points : List Int) (d : Detector)
    (f : Function) (rest : List Function) :
    Never (t.assign ctx v entries points d (f :: rest)) := by
  rw [TypeInfo.assign]
  exact (checkCancelled_stopped stopped).bind _

/-- With a vtable and a candidate, a correlation is never answered. -/
theorem correlate_stopped (t : TypeInfo) {v : Vtable} (valid : v.isValid = true)
    (vtt : Option Vtt) {candidates : List Function} (given : candidates ≠ []) (d : Detector) :
    Never (t.correlate ctx v vtt candidates d) := by
  rw [TypeInfo.correlate]
  cases first : v.primary? with
  | none =>
    rw [Vtable.primary?, List.head?_eq_none_iff] at first
    rw [Vtable.isValid, first] at valid
    cases valid
  | some primary =>
    cases candidates with
    | nil => exact absurd rfl given
    | cons f rest => exact (assign_stopped stopped t v _ _ d f rest).bind _

/-- A correlation that is answered has found nothing. -/
theorem correlate_yields (t : TypeInfo) (v : Vtable) (vtt : Option Vtt)
    (candidates : List Function) (d : Detector) :
    Yields (· = []) (t.correlate ctx v vtt candidates d) := by
  rw [TypeInfo.correlate]
  cases v.primary? with
  | none => exact .pure rfl
  | some primary =>
    cases candidates with
    | nil => exact .pure (by simp)
    | cons f rest => exact (assign_stopped stopped t v _ _ d f rest).bind _

end Context

/-! ### What is kept -/

/-- No vtable has become known, and no table of vtables but missing ones. -/
structure Knowledge.NothingNew (known later : Knowledge) : Prop where
  /-- The vtables are the same. -/
  vtables : later.vtables = known.vtables
  /-- The tables of vtables were known before. -/
  vtts : ∀ ⦃address : Int⦄ ⦃vtt : Vtt⦄, later.vtts[address]? = some (some vtt) →
    known.vtts[address]? = some (some vtt)

theorem Knowledge.NothingNew.refl (known : Knowledge) : known.NothingNew known :=
  ⟨rfl, fun _ _ kept => kept⟩

theorem Knowledge.NothingNew.trans {known later last : Knowledge} (first : known.NothingNew later)
    (second : later.NothingNew last) : known.NothingNew last :=
  ⟨second.vtables.trans first.vtables, fun _ _ kept => first.vtts (second.vtts kept)⟩

/-- **Stopped questions keep nothing new.** -/
theorem Context.upholds_stopped {ctx : Context} (stopped : ctx.cancelled = true)
    (known : Knowledge) :
    ctx.UpholdsCells (fun k => (ctx.Grounded k ∧ known.Grows k) ∧ known.NothingNew k)
      ctx.Identified where
  good := (ctx.upholds_grows known).good
  meet found holds := ⟨(ctx.upholds_grows known).meet found holds.1, { holds.2 with }⟩
  mark place holds := ⟨(ctx.upholds_grows known).mark place holds.1, { holds.2 with }⟩
  named earlier new holds good asked :=
    ⟨(ctx.upholds_grows known).named earlier.1 new holds.1 good asked, { holds.2 with }⟩
  listed holds := (ctx.upholds_grows known).listed holds.1
  read earlier new holds good targets asked :=
    ⟨(ctx.upholds_grows known).read earlier.1 new holds.1 good targets asked, { holds.2 with }⟩
  collection holds := (ctx.upholds_grows known).collection holds.1
  collected earlier new holds good targets asked :=
    ⟨(ctx.upholds_grows known).collected earlier.1 new holds.1 good targets asked,
      { holds.2 with }⟩
  served holds := (ctx.upholds_grows known).served holds.1
  located {_ _ t _} _ _ _ _ _ asked := (locateVtable_stopped stopped t asked).elim
  vtt {_ k t vtt} earlier new holds good asked := by
    refine ⟨(ctx.upholds_grows known).vtt earlier.1 new holds.1 good asked, ?_⟩
    have yields : Yields (· = none) (t.vtable ctx >>= t.locateVtt ctx) :=
      .andThen fun v => locateVtt_stopped stopped t v
    have missing := yields asked
    subst missing
    -- only a missing table is kept
    have before : ∀ ⦃address : Int⦄ ⦃vtt : Option Vtt⦄,
        (k.vtts.insert t.address none)[address]? = some vtt →
        ∀ w, vtt = some w → known.vtts[address]? = some (some w) :=
      Cells.forall_insert (fun _ _ kept w same => holds.2.vtts (same ▸ kept))
        fun w same => by cases same
    exact { holds.2 with vtts := fun _ w kept => before kept w rfl }
  stores book holds := ⟨(ctx.upholds_grows known).stores book holds.1, { holds.2 with }⟩

/-! ### Sessions -/

/-- The answer gives a vtable or a table of vtables. -/
def Answer.givesTable : Answer → Bool
  | .vtable (some _) | .vtt (some _) => true
  | _ => false

/-- Questions for the class's own tables, which are kept. -/
def ClassQuery.isOwnTable : ClassQuery → Bool
  | .vtable | .vtt => true
  | _ => false

namespace Session

variable {s : Session}

/-- Questions about the image are answered with other things than tables. -/
theorem askImage_givesNoTable (s : Session) (question : ImageQuery) :
    Yields (·.givesTable = false) (lift (s.askImage question)) := by
  rw [askImage.eq_def]
  cases question with
  | readInt address size signed => exact .liftBind fun _ => .pure rfl
  | readPointer address => exact .liftBind fun _ => .pure rfl
  | resolve address => exact .liftBind fun _ => .pure rfl
  | findBytes pattern ranges => exact .liftBind fun _ => .pure rfl
  | findReferences target alignment => exact .liftBind fun _ => .pure rfl
  | identify address =>
    refine .liftBind fun found => ?_
    cases found with
    | none => exact .pure rfl
    | some t => exact .liftBind fun _ => .pure rfl
  | stores function maxSize =>
    refine .liftBind fun d => ?_
    cases function.elim s.image.functionAt? some with
    | none => exact .pure rfl
    | some f => exact .liftBind fun _ => .pure rfl
  | _ => exact .pure rfl

/-- A user's search for references is not answered either. -/
theorem askReferences_stopped (stopped : s.cancelled = true) (target alignment : Int) :
    Never (lift (s.askImage (.findReferences target alignment))) := by
  refine Yields.lift fun answer answered => ?_
  have failed := s.image.findReferences_stopped target alignment
  rw [← stopped] at failed
  rw [askImage.eq_def] at answered
  cases found : s.image.findReferences s.cancelled target alignment with
  | error fault =>
    simp only [found] at answered
    cases answered
  | ok references => exact failed references found

/-- Stores of one's own do not change what is answered. -/
theorem withOwnStores_yields {α : Type} {P : α → Prop} {q : Recover α} (yields : Yields P q) :
    Yields P (withOwnStores q) := by
  intro known a after answered
  rw [withOwnStores] at answered
  cases asked : q { known with stores := {} } with
  | ok b learned =>
    rw [asked] at answered
    cases answered
    exact yields asked
  | error fault learned =>
    rw [asked] at answered
    cases answered

/-- A stopped correlation that is answered has found nothing. -/
theorem askCorrelation_stopped (stopped : s.cancelled = true) (t : TypeInfo)
    (what : Correlation) :
    Yields (∃ asked, · = .assignments [] asked) (s.askCorrelation t what) := by
  rw [askCorrelation_eq]
  refine .andThen fun d => .andThen fun vtt => .andThen fun v => ?_
  have found : Yields (∃ asked, · = .assignments [] asked) (s.correlation t what d vtt v) := by
    refine .andThen fun known => ?_
    refine (Context.correlate_yields stopped t v vtt _ d).bind ?_
    rintro _ rfl
    exact .andThen fun known => .pure ⟨_, rfl⟩
  exact .ite found (withOwnStores_yields found)

/-- Of the questions about a class only those for its own tables can be answered with one: all
    others would have to read it. -/
theorem askClass_givesNoTable (stopped : s.cancelled = true) (t : TypeInfo)
    {question : ClassQuery} (other : question.isOwnTable = false) :
    Yields (·.givesTable = false) (s.askClass t question) := by
  rw [askClass.eq_def]
  -- What would read a table is never answered or answered with nothing; the rest is of another
  -- type.
  cases question with
  | vtable => cases other
  | vtt => cases other
  | locateVtable => exact (Context.locateVtable_stopped stopped t).bind _
  | vtableAt address =>
    refine (Context.vtableAt?_stopped stopped t address).bind ?_
    rintro _ rfl
    exact .pure rfl
  | locateVtt vtableAt =>
    refine .andThen fun v => (Context.locateVtt_stopped stopped t v).bind ?_
    rintro _ rfl
    exact .pure rfl
  | vttAt address vtableAt =>
    refine .andThen fun v => (Context.vttAt?_stopped stopped t v address).bind ?_
    rintro _ rfl
    exact .pure rfl
  | correlate what =>
    intro known answer after answered
    obtain ⟨asked, rfl⟩ := askCorrelation_stopped stopped t what answered
    rfl
  | _ => exact .andThen fun _ => .pure rfl

/-- **Only kept tables are given.**  A query that is answered with a table is one for the own table
    of a class. -/
theorem recover_givesTable (stopped : s.cancelled = true) {query : Query} {answer : Answer}
    {known after : Knowledge} (answered : s.recover query known = .ok answer after)
    (gives : answer.givesTable = true) :
    ∃ address question, query = .ofClass address question ∧ question.isOwnTable = true := by
  -- It is enough that no other query gives a table, which is a matter of their types but for
  -- questions about a class.
  by_contra other
  suffices yields : Yields (·.givesTable = false) (s.recover query) by
    cases gives.symm.trans (yields answered)
  rw [recover.eq_def]
  cases query with
  | image question => exact s.askImage_givesNoTable question
  | ofClass address question =>
    refine .andThen fun found => ?_
    cases found with
    | none => exact .pure rfl
    | some t =>
      refine askClass_givesNoTable stopped t ?_
      rw [Bool.eq_false_iff]
      exact fun own => other ⟨address, question, rfl, own⟩
  | nameAt address =>
    refine .andThen fun found => ?_
    cases found with
    | none => exact .pure rfl
    | some t => exact .andThen fun _ => .pure rfl
  | compare first second =>
    exact .andThen fun _ => .andThen fun _ => .andThen fun _ => .andThen fun _ => .pure rfl
  | findTypeInfo cancelled range name =>
    refine .andThen fun found => ?_
    cases found with
    | none => exact .pure rfl
    | some t => exact .andThen fun _ => .pure rfl
  | cancel => exact .pure rfl
  | setLimit setting v => exact .pure rfl
  | _ => exact .andThen fun _ => .pure rfl

/-- What one query to a stopped session adds to knowledge. -/
theorem ask_stopped (grounded : s.Grounded) (stopped : s.cancelled = true) (query : Query) :
    s.known.NothingNew (s.ask query).2.known := by
  have upholds := s.context.upholds_stopped stopped s.known
  have begins : (s.context.Grounded s.known ∧ s.known.Grows s.known) ∧
      s.known.NothingNew s.known := ⟨⟨grounded, .refl _⟩, .refl _⟩
  rcases (recover_keeps upholds query).ends begins with
    ⟨answer, known, answered, -, -, nothing⟩ | ⟨fault, known, failed, -, nothing⟩
  · rw [ask_ok answered]
    exact nothing
  · rw [ask_error failed]
    exact nothing

/-- What a run of queries to a stopped session adds, by induction on the queries. -/
theorem after_stopped (grounded : s.Grounded) (stopped : s.cancelled = true)
    (queries : List Query) : s.known.NothingNew (s.after queries).known := by
  induction queries generalizing s with
  | nil => exact .refl _
  | cons query rest ih =>
    obtain ⟨still, leads⟩ := ask_leads grounded query
    exact (ask_stopped grounded stopped query).trans (ih still (leads.stopped stopped))

/-! ### Kept tables -/

/-- **Tables are given only where they are asked for and kept.** -/
theorem of_table_given (grounded : s.Grounded) (stopped : s.cancelled = true) {query : Query}
    {answer : Answer} (gives : answer.givesTable = true) (answered : (s.ask query).1 = .ok answer) :
    ∃ address,
      (query = .ofClass address .vtable ∧
        ∃ v, answer = .vtable (some v) ∧ s.known.vtables[address]? = some v) ∨
      (query = .ofClass address .vtt ∧
        ∃ vtt, answer = .vtt vtt ∧ ∀ w, vtt = some w → s.known.vtts[address]? = some (some w)) := by
  obtain ⟨address, question, rfl, own⟩ := recover_givesTable stopped (of_ask_ok answered) gives
  have isClass : answer ≠ .noClass := by
    rintro rfl
    cases gives
  have nothing := ask_stopped grounded stopped (.ofClass address question)
  cases question with
  | vtable =>
    obtain ⟨v, same, kept⟩ := kept_of_ofClass (fun known place => known.vtables[place]?)
      (fun v => .vtable (some v)) (fun _ => rfl) (fun t => (Context.vtableCell t).put) isClass
      answered
    exact ⟨address, .inl ⟨rfl, v, same, nothing.vtables ▸ kept⟩⟩
  | vtt =>
    obtain ⟨vtt, same, kept⟩ := kept_of_ofClass (fun known place => known.vtts[place]?) .vtt
      (fun _ => rfl) (fun t => (Context.vttCell t).put) isClass answered
    exact ⟨address, .inr ⟨rfl, vtt, same, fun w is => nothing.vtts (is ▸ kept)⟩⟩
  | _ => cases own

/-- **A stopped session recovers nothing new.**  The user asks to stop after the queries `before`,
    and `later` queries follow.  Then no vtable and no table of vtables is known that was not known
    when the session was stopped, and none is given; vtables are neither located nor read; searches
    for references are never answered; no class is discovered; no candidate is correlated with a
    vtable.  Whatever was known, and whatever was answered, is still answered. -/
theorem nothing_new (image : Image) (demangle : Demangler) (limits : Limits) (table : Detector)
    (listing : Listing) (before later : List Query) :
    let first := start image demangle limits table listing
    let s := first.after before
    let c := (s.ask .cancel).2.after later
    c.known.vtables = s.known.vtables ∧
    (∀ (address : Int) (vtt : Vtt), c.known.vtts[address]? = some (some vtt) ↔
      s.known.vtts[address]? = some (some vtt)) ∧
    (∀ query v, (c.ask query).1 = .ok (.vtable (some v)) →
      ∃ address, query = .ofClass address .vtable ∧ s.known.vtables[address]? = some v) ∧
    (∀ query vtt, (c.ask query).1 = .ok (.vtt (some vtt)) →
      ∃ address, query = .ofClass address .vtt ∧ s.known.vtts[address]? = some (some vtt)) ∧
    (∀ (t : TypeInfo) known v after, t.locateVtable c.context known ≠ .ok v after) ∧
    (∀ (t : TypeInfo) address known v after,
      t.vtableAt? c.context address known ≠ .ok (some v) after) ∧
    (∀ target alignment answer,
      (c.ask (.image (.findReferences target alignment))).1 ≠ .ok answer) ∧
    (∀ answer, (c.ask .discover).1 = .ok answer → answer = .classInfos []) ∧
    (∀ (t : TypeInfo) v vtt candidates d known found after, v.isValid = true → candidates ≠ [] →
      t.correlate c.context v vtt candidates d known ≠ .ok found after) ∧
    (∀ address what answer, (c.ask (.ofClass address (.correlate what))).1 = .ok answer →
      answer = .noClass ∨ ∃ asked, answer = .assignments [] asked) ∧
    (∀ address bases, s.known.bases[address]? = some bases →
      (c.ask (.ofClass address .bases)).1 = .ok (.bases bases)) ∧
    (∀ address v, s.known.vtables[address]? = some v →
      (c.ask (.ofClass address .vtable)).1 = .ok (.vtable (some v))) ∧
    (∀ address vtt, s.known.vtts[address]? = some vtt →
      (c.ask (.ofClass address .vtt)).1 = .ok (.vtt vtt)) ∧
    (∀ address classes, s.known.virtualBases[address]? = some classes →
      (c.ask (.ofClass address .virtualBases)).1 = .ok (.addresses (classes.map (·.address)))) ∧
    (∀ address name, s.known.names.mangled[address]? = some name →
      (c.ask (.ofClass address .typeName)).1 = .ok (.text (some name))) ∧
    (∀ address name, s.known.names.display[address]? = some name →
      (c.ask (.ofClass address .name)).1 = .ok (.text (some name))) ∧
    (∀ address name, s.known.names.unique[address]? = some name →
      (c.ask (.ofClass address .uniqueName)).1 = .ok (.text (some name))) ∧
    ∀ earlier rest address question answer,
      before = earlier ++ .ofClass address question :: rest → question.lasts = true →
      ((first.after earlier).ask (.ofClass address question)).1 = .ok answer →
      (c.ask (.ofClass address question)).1 = .ok answer := by
  intro first s c
  have begins : first.Grounded := grounded_start image demangle limits table listing
  have grounded : s.Grounded := (after_leads begins before).1
  obtain ⟨told, cancels⟩ := ask_leads grounded .cancel
  obtain ⟨still, follows⟩ : c.Grounded ∧ (s.ask .cancel).2.Leads c := after_leads told later
  -- The session at the end follows from the one that was stopped, so it knows all that was known,
  -- and it is stopped itself.
  have leads : s.Leads c := cancels.trans follows
  have stopped : c.cancelled = true := follows.stopped rfl
  have nothing : s.known.NothingNew c.known := after_stopped told rfl later
  -- A name is asked for in three forms, each with a cell of its own.
  have named : ∀ (form : NameForm) (question : ClassQuery),
      (∀ t : TypeInfo, c.askClass t question =
        t.nameAs c.context form >>= fun name => Pure.pure (.text (some name))) →
      ∀ (address : Int) (name : String), s.known.names.find address form = some name →
        (c.ask (.ofClass address question)).1 = .ok (.text (some name)) := by
    intro form question asks address name kept
    have here := leads.known.names kept
    exact ofClass_of_kept (·.names.find · form) (fun name => .text (some name)) asks
      (still.names here).1 fun _ => here
  refine ⟨nothing.vtables, fun address vtt => ⟨fun kept => nothing.vtts kept,
    fun kept => leads.known.vtts kept⟩, ?vtables, ?vtts, ?locate, ?read, ?references, ?discover,
    ?correlate, ?correlation, ?knownBases, ?knownVtables, ?knownVtts, ?knownVirtuals,
    named .mangled .typeName fun _ => rfl, named .display .name fun _ => rfl,
    named .unique .uniqueName fun _ => rfl, ?answered⟩
  case vtables =>
    intro query v answered
    rw [← nothing.vtables]
    obtain ⟨address, ⟨asks, w, same, kept⟩ | ⟨-, _, other, -⟩⟩ :=
      of_table_given still stopped rfl answered
    · cases same
      exact ⟨address, asks, kept⟩
    · cases other
  case vtts =>
    intro query vtt answered
    obtain ⟨address, ⟨-, _, other, -⟩ | ⟨asks, w, same, kept⟩⟩ :=
      of_table_given still stopped rfl answered
    · cases other
    · cases same
      exact ⟨address, asks, nothing.vtts (kept vtt rfl)⟩
  case locate =>
    intro t known v after located
    exact c.context.locateVtable_stopped stopped t located
  case read =>
    intro t address known v after read
    cases c.context.vtableAt?_stopped stopped t address read
  case references =>
    intro target alignment answer answered
    exact askReferences_stopped stopped target alignment (of_ask_ok answered)
  case discover =>
    intro answer answered
    have yields : Yields (· = .classInfos []) (c.recover .discover) := by
      refine (c.context.discover_stopped stopped).bind ?_
      rintro _ rfl
      exact .pure rfl
    exact yields (of_ask_ok answered)
  case correlate =>
    intro t v vtt candidates d known found after valid given answered
    exact c.context.correlate_stopped stopped t valid vtt given d answered
  case correlation =>
    intro address what answer answered
    by_cases isClass : answer = .noClass
    · exact .inl isClass
    · obtain ⟨t, -, asked⟩ := of_ofClass_ok isClass answered
      exact .inr (askCorrelation_stopped stopped t what asked)
  case knownBases =>
    intro address bases kept
    have here := leads.known.bases kept
    exact ofClass_of_kept (fun known place => known.bases[place]?) .bases (fun _ => rfl)
      (still.bases here).1 fun _ => here
  case knownVtables =>
    intro address v kept
    have here := leads.known.vtables kept
    exact ofClass_of_kept (fun known place => known.vtables[place]?) (fun v => .vtable (some v))
      (fun _ => rfl) (still.vtables here).1 fun _ => here
  case knownVtts =>
    intro address vtt kept
    have here := leads.known.vtts kept
    exact ofClass_of_kept (fun known place => known.vtts[place]?) .vtt (fun _ => rfl)
      (still.vtts here) fun _ => here
  case knownVirtuals =>
    intro address classes kept
    have here := leads.known.virtualBases kept
    exact ofClass_of_kept (fun known place => known.virtualBases[place]?)
      (fun classes : List TypeInfo => .addresses (classes.map TypeInfo.address)) (fun _ => rfl)
      (still.collected here).hasClass fun _ => here
  case answered =>
    intro earlier rest address question answer split lasts answered
    have there : (first.after earlier).Grounded := (after_leads begins earlier).1
    -- The query was one of those before the stop, so everything it settled is still known.
    have path : s = ((first.after earlier).ask (.ofClass address question)).2.after rest := by
      show first.after before = _
      rw [split, after_append, after_cons]
    have reached := (after_leads (ask_leads there (.ofClass address question)).1 rest).2
    rw [← path] at reached
    exact ofClass_lasts there lasts answered (reached.trans leads) still

/-- In the small program the vtable of the derived class is given after the session was stopped. -/
theorem nothing_new_sample :
    ∃ v : Vtable, v.address = 0x400028 ∧
      ((((sample.after [.ofClass 0x400010 .vtable]).ask .cancel).2.after [.discover]).ask
        (.ofClass 0x400010 .vtable)).1 = .ok (.vtable (some v)) := by
  have located : (sample.after [.ofClass 0x400010 .vtable]).known.vtables[(0x400010 : Int)]?.map
      (·.address) = some 0x400028 := by decide +kernel
  obtain ⟨v, kept, address⟩ := Option.map_eq_some_iff.mp located
  refine ⟨v, address, ?_⟩
  rw [sample] at kept ⊢
  obtain ⟨-, -, -, -, -, -, -, -, -, -, -, known, -⟩ := nothing_new .sample (fun _ => none) {}
    (.ofTable []) [] [.ofClass 0x400010 .vtable] [.discover]
  exact known 0x400010 v kept

end Session

end ItaniumRtti
