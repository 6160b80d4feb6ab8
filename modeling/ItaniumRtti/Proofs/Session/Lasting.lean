import ItaniumRtti.Proofs.Discovery
import ItaniumRtti.Proofs.Session.Growing

namespace ItaniumRtti

/-!
# Answers last

Once a question about a class has been answered, it is answered in the same way for the rest of the
session, whatever is asked in between and however the limits are changed.

* `Recover.Lasting` — a question whose answers last, and its rules;
* `Recover.Repeating` — a question that, asked again at once, also stops in the same way;
* `Recover.Cell` — where the answers of a question are kept, and why they last;
* `Context.nameAs_repeating`, `Context.edges_repeating`, … — names and walks repeat;
* `Context.vtable_lasting`, `Context.anyAbstract_lasting`, … — what is kept in cells lasts;
* `Session.answers_last` — the answers of a session last.
-/

open Recover

namespace Recover

variable {α β : Type} {ctx : Context} {P : α → Prop} {Q : β → Prop} {q q' : Recover α}

/-! ### Lasting answers -/

/-- Once `q` is answered, `q'` gets this answer from any state that knows as much, and learns
    nothing by it. -/
structure Lasting (ctx : Context) (P : α → Prop) (q q' : Recover α) : Prop where
  /-- The first question keeps knowledge grounded and lets it grow; its answers satisfy `P`. -/
  keeps : ∀ known : Knowledge, Keeps (fun k => ctx.Grounded k ∧ known.Grows k) P q
  /-- The second question repeats the answer. -/
  again : ∀ {k after later : Knowledge} {a : α}, ctx.Grounded k → q k = .ok a after →
    ctx.Grounded later → after.Grows later → q' later = .ok a later

/-- What a run of the first question that ends with an answer has done. -/
theorem Lasting.of_ok (lasting : Lasting ctx P q q') {k after : Knowledge} {a : α}
    (grounded : ctx.Grounded k) (answered : q k = .ok a after) :
    P a ∧ ctx.Grounded after ∧ k.Grows after :=
  (lasting.keeps k).of_ok ⟨grounded, .refl k⟩ answered

/-- Questions that last, one after the other. -/
theorem Lasting.bind {f f' : α → Recover β} (first : Lasting ctx P q q')
    (second : ∀ a, P a → Lasting ctx Q (f a) (f' a)) :
    Lasting ctx Q (q >>= f) (q' >>= f') where
  keeps known := (first.keeps known).bind fun a good => (second a good).keeps known
  again {k after later b} grounded answered still grows := by
    obtain ⟨a, middle, asked, answered⟩ := of_bind_ok answered
    obtain ⟨good, between, -⟩ := first.of_ok grounded asked
    obtain ⟨-, -, more⟩ := (second a good).of_ok between answered
    -- what the first question left behind is still there when both are asked again
    have repeated := first.again grounded asked still (more.trans grows)
    rw [bind_ok repeated]
    exact (second a good).again between answered still grows

/-! ### Repeated questions -/

/-- Besides, if `q` is stopped, it is stopped in the same way when it is asked again at once. -/
structure Repeating (ctx : Context) (P : α → Prop) (q q' : Recover α) : Prop
    extends Lasting ctx P q q' where
  /-- Asked again in the same settings, the question repeats its answer. -/
  self : Lasting ctx P q q
  /-- Asked again in a state that knows the same, it repeats its fault. -/
  stops : ∀ {k after later : Knowledge} {fault : Fault}, ctx.Grounded k → q k = .error fault after →
    ctx.Grounded later → after.Grows later → later.Grows after →
    ∃ last, q later = .error fault last

namespace Repeating

/-- An answer that is given at once. -/
theorem pure {a : α} (holds : P a) : Repeating ctx P (pure a) (pure a) := by
  have lasting : Lasting ctx P (Pure.pure a) (Pure.pure a) :=
    { keeps := fun _ => .pure holds
      again := fun _ answered _ _ => by cases answered; rfl }
  exact { lasting with
    self := lasting
    stops := fun _ stopped => by cases stopped }

/-- Questions that repeat, one after the other. -/
theorem bind {f f' : α → Recover β} (first : Repeating ctx P q q')
    (second : ∀ a, P a → Repeating ctx Q (f a) (f' a)) :
    Repeating ctx Q (q >>= f) (q' >>= f') where
  toLasting := first.toLasting.bind fun a good => (second a good).toLasting
  self := first.self.bind fun a good => (second a good).self
  stops {k after later fault} grounded stopped still grows back := by
    cases asked : q k with
    | error other middle =>
      rw [bind_error asked] at stopped
      cases stopped
      obtain ⟨last, again⟩ := first.stops grounded asked still grows back
      exact ⟨last, bind_error again⟩
    | ok a middle =>
      -- The first question was answered, and its answer lasts; the fault is one of the second.
      rw [bind_ok asked] at stopped
      obtain ⟨good, between, -⟩ := first.of_ok grounded asked
      have more := (((second a good).keeps middle).of_error ⟨between, .refl middle⟩ stopped).2
      have repeated := first.self.again grounded asked still (more.trans grows)
      rw [bind_ok repeated]
      exact (second a good).stops between stopped still grows back

theorem map {f : α → β} (repeating : Repeating ctx P q q') (holds : ∀ a, P a → Q (f a)) :
    Repeating ctx Q (q >>= fun a => Pure.pure (f a)) (q' >>= fun a => Pure.pure (f a)) :=
  repeating.bind fun a good => .pure (holds a good)

/-- A run over a list with an accumulator. -/
theorem foldlM {T : β → Prop} {S : α → Prop} {f f' : α → β → Recover α} :
    ∀ {l : List β} {start : α}, (∀ b ∈ l, T b) → S start →
      (∀ a b, S a → T b → Repeating ctx S (f a b) (f' a b)) →
      Repeating ctx S (l.foldlM f start) (l.foldlM f' start)
  | [], start, _, begins, _ => by
    simp only [List.foldlM_nil]
    exact .pure begins
  | b :: rest, start, good, begins, each => by
    simp only [List.foldlM_cons]
    obtain ⟨first, others⟩ := List.forall_mem_cons.mp good
    exact (each start b begins first).bind fun a holds => foldlM others holds each

end Repeating

/-! ### Remembered questions -/

/-- A cell of knowledge: what is put there is found, and is not lost as knowledge grows. -/
structure Cell (find : Knowledge → Option α) (keep : α → Knowledge → Knowledge) : Prop where
  /-- What is put there is found. -/
  put : ∀ a known, find (keep a known) = some a
  /-- What is found there is found later. -/
  kept : ∀ {known later a}, known.Grows later → find known = some a → find later = some a

/-- A question that is stopped leaves its cell empty, since nothing else fills it. -/
theorem empty_of_error {find : Knowledge → Option α} {keep : α → Knowledge → Knowledge}
    (stays : Keeps (fun k => find k = none) Any q) {known after : Knowledge} {fault : Fault}
    (stopped : remember find keep q known = .error fault after) : find after = none := by
  obtain ⟨empty, refused⟩ := of_remember_error stopped
  exact stays.of_error empty refused

namespace Cell

variable {find : Knowledge → Option α} {keep : α → Knowledge → Knowledge} (cell : Cell find keep)
include cell

/-- An empty cell was empty before. -/
theorem none {known later : Knowledge} (grows : known.Grows later) (empty : find later = none) :
    find known = Option.none := by
  rw [Option.eq_none_iff_forall_ne_some]
  intro a here
  cases empty.symm.trans (cell.kept grows here)

/-- **Answers that are kept in a cell last**, whatever question would fill the cell later. -/
theorem lasting (keeps : ∀ known : Knowledge,
      Keeps (fun k => ctx.Grounded k ∧ known.Grows k) P (remember find keep q)) :
    Lasting ctx P (remember find keep q) (remember find keep q') where
  keeps := keeps
  again _ answered _ grows :=
    remember_of_known (cell.kept grows (known_of_remember cell.put answered))

/-- **A question that is remembered repeats** if the question itself is stopped again where it was
    stopped, and does not fill the cell. -/
theorem repeating (keeps : ∀ known : Knowledge,
      Keeps (fun k => ctx.Grounded k ∧ known.Grows k) P (remember find keep q))
    (stays : Keeps (fun k => find k = Option.none) Any q)
    (stops : ∀ {k after later fault}, ctx.Grounded k → q k = .error fault after →
      ctx.Grounded later → after.Grows later → later.Grows after →
      ∃ last, q later = .error fault last) :
    Repeating ctx P (remember find keep q) (remember find keep q') where
  toLasting := cell.lasting keeps
  self := cell.lasting keeps
  stops {k after later fault} grounded stopped still grows back := by
    obtain ⟨last, again⟩ := stops grounded (of_remember_error stopped).2 still grows back
    -- no answer was kept, and so the question is asked again
    have nothing : find later = Option.none := cell.none back (empty_of_error stays stopped)
    rw [remember, get_bind, nothing]
    exact ⟨last, bind_error again⟩

end Cell

end Recover

namespace Context

variable {ctx : Context} {t : TypeInfo}

/-! ### Names -/

/-- Names repeat as long as they are not kept, too. -/
theorem typeNameAt_repeating (ctx : Context) (address : Int) :
    Repeating ctx Any (typeNameAt ctx address) (typeNameAt ctx address) := by
  have lasting : Lasting ctx Any (typeNameAt ctx address) (typeNameAt ctx address) :=
    { keeps := fun known => (ctx.upholds_grows known).typeNameAt address
      again := fun grounded answered still grows =>
        typeNameAt_again grounded.marks answered still.marks grows.marks }
  refine { lasting with self := lasting, stops := fun {k after later fault} _ stopped _ _ _ => ?_ }
  obtain ⟨refused, -⟩ := of_typeNameAt_error stopped
  exact ⟨later, bind_error (lift_error later refused)⟩

/-- The cells with a class's names. -/
theorem nameCell (t : TypeInfo) (form : NameForm) :
    Cell (fun known => known.names.find t.address form)
      (fun name known => { known with names := known.names.insert t.address name form }) where
  put name known := by rw [NameCells.find_insert, if_pos ⟨rfl, rfl⟩]
  kept grows here := grows.names here

/-- To find a name in one form, it is not kept in this form. -/
theorem readName_stays (ctx : Context) (t : TypeInfo) (form : NameForm) :
    Keeps (fun k => k.names.find t.address form = none) Any (t.readName ctx form) := by
  have mangled : form ≠ .mangled →
      Keeps (fun k => k.names.find t.address form = none) Any (t.typeName ctx) := by
    intro other
    refine Keeps.remember (fun _ _ => trivial) (typeNameAt_holding (fun _ empty => empty) _) ?_
    intro before k name _ _ empty _ _
    rw [NameCells.find_insert, if_neg fun same => other same.1.symm]
    exact empty
  cases form with
  | mangled => exact typeNameAt_holding (fun _ empty => empty) _
  | display => exact (mangled (by decide)).map fun _ _ => trivial
  | unique => exact (mangled (by decide)).map fun _ _ => trivial

/-- Names of a class repeat in every form. -/
theorem nameAs_repeating (identified : ctx.Identified t) (form : NameForm) :
    Repeating ctx Any (t.nameAs ctx form) (t.nameAs ctx form) := by
  have cell : ∀ form, (∀ {k after later fault}, ctx.Grounded k →
        t.readName ctx form k = .error fault after → ctx.Grounded later → after.Grows later →
        later.Grows after → ∃ last, t.readName ctx form later = .error fault last) →
      Repeating ctx Any (t.nameAs ctx form) (t.nameAs ctx form) :=
    fun form => (nameCell t form).repeating
      (fun known => (ctx.upholds_grows known).locating.nameAs form identified)
      (ctx.readName_stays t form)
  -- the other forms are made of the mangled name
  have typeName : Repeating ctx Any (t.typeName ctx) (t.typeName ctx) :=
    cell .mangled (ctx.typeNameAt_repeating t.address).stops
  refine cell form ?_
  cases form with
  | mangled => exact (ctx.typeNameAt_repeating t.address).stops
  | display => exact (typeName.map (Q := Any) fun _ _ => trivial).stops
  | unique => exact (typeName.map (Q := Any) fun _ _ => trivial).stops

/-! ### Direct bases -/

/-- Whether direct bases can be read, and which, does not depend on what is known. -/
theorem readBases_alike (ctx : Context) (t : TypeInfo) :
    Alike (.invariant Any Any) Any (t.readBases ctx) (t.readBases ctx) :=
  ((ctx.reading (S := Any) (tolerates_any ctx) fun _ _ => trivial).readBases (fun _ => trivial)
    t).any

/-- The cell with its direct bases. -/
theorem basesCell (t : TypeInfo) : Cell (fun known => known.bases[t.address]?)
    (fun bases known => { known with bases := known.bases.insert t.address bases }) where
  put _ _ := Std.TreeMap.getElem?_insert_self
  kept grows here := grows.bases here

/-- Direct bases last because they are kept, and are refused again because what refused them does
    not change. -/
theorem bases_repeating (identified : ctx.Identified t) (limits : Limits) (cancelled : Bool) :
    Repeating ctx (fun bases => ∀ b ∈ bases, ctx.Identified b.target) (t.bases ctx)
      (t.bases (ctx.withSettings limits cancelled)) := by
  have keeps : ∀ known : Knowledge, Keeps (fun k => ctx.Grounded k ∧ known.Grows k)
      (fun bases => ∀ b ∈ bases, ctx.Identified b.target) (t.bases ctx) :=
    fun known => (ctx.upholds_grows known).locating.bases identified
  refine (basesCell t).repeating keeps
    (ctx.readBases_keeps t fun cells => cells[t.address]? = none) ?_
  intro k after later fault _ refused _ _ _
  rcases (ctx.readBases_alike t k later ⟨trivial, trivial⟩).cases with
    ⟨_, _, _, read, -⟩ | ⟨_, _, last, read, again, -⟩
  · cases refused.symm.trans read
  · cases refused.symm.trans read
    exact ⟨last, again⟩

/-! ### Walks -/

section Walks

variable (limits : Limits) (cancelled : Bool)

/-- A walk along pending edges repeats, since the bases of each class that it enters are known then.
    -/
theorem edgesFrom_repeating (fuel : Nat) (seen : List Int) (pending : List Base)
    (good : ∀ e ∈ pending, ctx.Identified e.target) :
    Repeating ctx Any (edgesFrom ctx fuel seen pending)
      (edgesFrom (ctx.withSettings limits cancelled) fuel seen pending) := by
  induction fuel generalizing seen pending with
  | zero => exact .pure trivial
  | succ fuel ih =>
    rw [edgesFrom, edgesFrom]
    -- Edges to classes entered before take no question.
    have new : ∀ e ∈ pending.dropWhile (fun e => seen.contains e.target.address),
        ctx.Identified e.target :=
      fun e member => good e ((List.dropWhile_suffix _).subset member)
    revert new
    cases pending.dropWhile (fun e => seen.contains e.target.address) with
    | nil => exact fun _ => .pure trivial
    | cons edge rest =>
      intro new
      obtain ⟨first, others⟩ := List.forall_mem_cons.mp new
      refine (bases_repeating first limits cancelled).bind fun below targets => ?_
      exact (ih _ _ (List.forall_mem_append.mpr ⟨targets, others⟩)).map fun _ _ => trivial

/-- So does a walk from a class. -/
theorem edges_repeating (identified : ctx.Identified t) :
    Repeating ctx Any (t.edges ctx) (t.edges (ctx.withSettings limits cancelled)) := by
  rw [TypeInfo.edges, TypeInfo.edges]
  refine (bases_repeating identified limits cancelled).bind fun bases targets => ?_
  exact edgesFrom_repeating limits cancelled _ _ bases targets

/-- The cell with a class's virtual bases. -/
theorem virtualsCell (t : TypeInfo) : Cell (fun known => known.virtualBases[t.address]?)
    (fun classes known =>
      { known with virtualBases := known.virtualBases.insert t.address classes }) where
  put _ _ := Std.TreeMap.getElem?_insert_self
  kept grows here := grows.virtualBases here

/-- To collect the virtual bases of a class, none are kept. -/
theorem collectVirtualBases_stays (ctx : Context) (t : TypeInfo) :
    Keeps (fun k => k.virtualBases[t.address]? = none) Any (t.collectVirtualBases ctx) := by
  have follows : Following ctx ctx.image.relocations
      (.holding fun k => k.virtualBases[t.address]? = none) Any :=
    following_holding (fun _ => trivial) (fun _ empty => empty) (fun _ _ _ _ _ => trivial)
      fun _ _ empty _ _ _ => empty
  exact (follows.collectVirtualBases trivial).any

/-- Virtual bases repeat since the walk that collects them does. -/
theorem virtualBases_repeating (identified : ctx.Identified t) :
    Repeating ctx (fun classes => ∀ c ∈ classes, ctx.Identified c) (t.virtualBases ctx)
      (t.virtualBases (ctx.withSettings limits cancelled)) := by
  have collects : Repeating ctx Any (t.collectVirtualBases ctx)
      (t.collectVirtualBases (ctx.withSettings limits cancelled)) :=
    (edges_repeating limits cancelled identified).map fun _ _ => trivial
  exact (virtualsCell t).repeating
    (fun known => (ctx.upholds_grows known).locating.virtualBases identified)
    (ctx.collectVirtualBases_stays t) collects.stops

/-- A walk that adds up offsets repeats. -/
theorem offsetsBelow_repeating (fuel : Nat) {owner : TypeInfo} (identified : ctx.Identified owner)
    (place : Int) (path : List Int) (found : List (TypeInfo × Int)) :
    Repeating ctx Any (offsetsBelow ctx fuel owner place path found)
      (offsetsBelow (ctx.withSettings limits cancelled) fuel owner place path found) := by
  induction fuel generalizing owner place path found with
  | zero => exact .pure trivial
  | succ fuel ih =>
    rw [offsetsBelow, offsetsBelow]
    refine (bases_repeating identified limits cancelled).bind fun bases targets => ?_
    refine Repeating.foldlM targets trivial fun found base _ target => ?_
    dsimp only
    split
    · exact .pure trivial
    · exact ih target _ _ _

/-! ### Tables -/

/-- The cell with a class's vtable. -/
theorem vtableCell (t : TypeInfo) : Cell (fun known => known.vtables[t.address]?)
    (fun v known => { known with vtables := known.vtables.insert t.address v }) where
  put _ _ := Std.TreeMap.getElem?_insert_self
  kept grows here := grows.vtables here

/-- The cell with its table of vtables. -/
theorem vttCell (t : TypeInfo) : Cell (fun known => known.vtts[t.address]?)
    (fun vtt known => { known with vtts := known.vtts.insert t.address vtt }) where
  put _ _ := Std.TreeMap.getElem?_insert_self
  kept grows here := grows.vtts here

/-- A vtable that was found is given again, whatever the settings are by then. -/
theorem vtable_lasting (identified : ctx.Identified t) :
    Lasting ctx (fun v => v.Serves ctx.Identified) (t.vtable ctx)
      (t.vtable (ctx.withSettings limits cancelled)) :=
  (vtableCell t).lasting fun known => (ctx.upholds_grows known).consulting.vtable identified

/-- So is a table of vtables, or that there is none. -/
theorem vtt_lasting (identified : ctx.Identified t) :
    Lasting ctx Any (t.vtt ctx) (t.vtt (ctx.withSettings limits cancelled)) :=
  (vttCell t).lasting fun known => (ctx.upholds_grows known).simulation.vtt identified

/-- Abstractness is not kept itself; it lasts since every vtable and every list of bases that it
    was found from is. -/
theorem anyAbstract_lasting (fuel : Nat) (seen : List Int) (pending : List TypeInfo)
    (good : ∀ t ∈ pending, ctx.Identified t) :
    Lasting ctx Any (anyAbstract ctx fuel seen pending)
      (anyAbstract (ctx.withSettings limits cancelled) fuel seen pending) := by
  induction fuel generalizing seen pending with
  | zero => exact (Repeating.pure trivial).toLasting
  | succ fuel ih =>
    rw [anyAbstract, anyAbstract]
    have new : ∀ t ∈ pending.dropWhile (fun t => seen.contains t.address), ctx.Identified t :=
      fun t member => good t ((List.dropWhile_suffix _).subset member)
    revert new
    cases pending.dropWhile (fun t => seen.contains t.address) with
    | nil => exact fun _ => (Repeating.pure trivial).toLasting
    | cons t rest =>
      intro new
      obtain ⟨first, others⟩ := List.forall_mem_cons.mp new
      -- A class with a vtable is judged by it alone; only below one without a vtable the walk goes
      -- on.
      refine (vtable_lasting limits cancelled first).bind fun v _ => ?_
      split
      · split
        · exact (Repeating.pure trivial).toLasting
        · exact ih _ rest others
      · refine (bases_repeating first limits cancelled).toLasting.bind fun bases targets => ?_
        exact ih _ _ (List.forall_mem_append.mpr ⟨List.forall_mem_map.mpr targets, others⟩)

end Walks

/-! ### Cells of tables -/

/-- To locate a vtable, no vtable is kept. -/
theorem upholds_vtables (ctx : Context) (S : Std.TreeMap Int Vtable → Prop) :
    ctx.Upholds (fun k => S k.vtables) Any where
  good _ := trivial
  meet _ same := same
  mark _ same := same
  named _ _ same _ _ := same
  listed _ _ _ _ _ := trivial
  read _ _ same _ _ _ := same
  collection _ _ _ _ _ := trivial
  collected _ _ same _ _ _ := same

/-- To locate a vtable, no table of vtables is kept, either. -/
theorem upholdsTables_vtts (ctx : Context) (S : Std.TreeMap Int (Option Vtt) → Prop) :
    ctx.UpholdsTables (fun k => S k.vtts) Any where
  good _ := trivial
  meet _ same := same
  mark _ same := same
  named _ _ same _ _ := same
  listed _ _ _ _ _ := trivial
  read _ _ same _ _ _ := same
  collection _ _ _ _ _ := trivial
  collected _ _ same _ _ _ := same
  served _ _ _ := Vtable.serves_any
  located _ _ same _ _ _ := same

/-- Locating a vtable does not touch the cells of vtables. -/
theorem locateVtable_keeps (ctx : Context) (t : TypeInfo) (S : Std.TreeMap Int Vtable → Prop) :
    Keeps (fun k => S k.vtables) Any (t.locateVtable ctx) :=
  ((ctx.upholds_vtables S).locating.locateVtable trivial (.inl trivial)).any

/-- To locate a table of vtables, no other is located. -/
theorem locateVtt_keeps (ctx : Context) (t : TypeInfo)
    (S : Std.TreeMap Int (Option Vtt) → Prop) :
    Keeps (fun k => S k.vtts) Any (t.vtable ctx >>= t.locateVtt ctx) := by
  have tables := (ctx.upholdsTables_vtts S).consulting
  exact (tables.vtable trivial).bind fun v _ => tables.locateVtt trivial fun _ _ => .inl trivial

end Context

/-! ### Questions about a class -/

/-- Questions about names and bases. -/
def ClassQuery.isPlain : ClassQuery → Bool
  | .typeName | .name | .uniqueName | .bases | .virtualBases | .ancestors | .baseOffsets => true
  | _ => false

/-- Questions whose answers last: those about names, bases and the class's own tables. -/
def ClassQuery.lasts : ClassQuery → Bool
  | .isAbstract | .vtable | .vtt => true
  | question => question.isPlain

namespace Session

variable {s later : Session} {t : TypeInfo} {question : ClassQuery}

/-- Questions about names and bases repeat. -/
theorem askClass_repeating
    (same : later.context = s.context.withSettings later.limits later.cancelled)
    (identified : s.context.Identified t) (plain : question.isPlain = true) :
    Repeating s.context Any (s.askClass t question) (later.askClass t question) := by
  have named : ∀ form,
      Repeating s.context Any (t.nameAs s.context form) (t.nameAs s.context form) :=
    Context.nameAs_repeating identified
  have edges := Context.edges_repeating later.limits later.cancelled identified
  -- Each question reads what is kept or walks over what is kept.
  rw [askClass.eq_def, askClass.eq_def, same]
  cases question with
  | typeName => exact (named .mangled).map fun _ _ => trivial
  | name => exact (named .display).map fun _ _ => trivial
  | uniqueName => exact (named .unique).map fun _ _ => trivial
  | bases =>
    exact (Context.bases_repeating identified later.limits later.cancelled).map fun _ _ => trivial
  | virtualBases =>
    exact (Context.virtualBases_repeating later.limits later.cancelled identified).map
      fun _ _ => trivial
  | ancestors =>
    have classes : Repeating s.context Any (t.ancestors s.context) (t.ancestors _) :=
      edges.map fun _ _ => trivial
    exact classes.map fun _ _ => trivial
  | baseOffsets =>
    have placed : Repeating s.context Any (t.baseOffsets s.context) (t.baseOffsets _) :=
      Context.offsetsBelow_repeating later.limits later.cancelled _ identified _ _ _
    exact placed.map fun _ _ => trivial
  | _ => cases plain

/-- Besides, those about the class's own tables last. -/
theorem askClass_lasting
    (same : later.context = s.context.withSettings later.limits later.cancelled)
    (identified : s.context.Identified t) (lasts : question.lasts = true) :
    Lasting s.context Any (s.askClass t question) (later.askClass t question) := by
  by_cases plain : question.isPlain = true
  · exact (askClass_repeating same identified plain).toLasting
  have pure : ∀ answer : Answer, Lasting s.context Any (Pure.pure answer) (Pure.pure answer) :=
    fun _ => (Repeating.pure trivial).toLasting
  rw [askClass.eq_def, askClass.eq_def, same]
  cases question with
  | isAbstract =>
    refine Lasting.bind (P := Any) ?_ fun _ _ => pure _
    exact Context.anyAbstract_lasting _ _ _ _ _ (List.forall_mem_singleton.mpr identified)
  | vtable => exact (Context.vtable_lasting _ _ identified).bind fun _ _ => pure _
  | vtt => exact (Context.vtt_lasting _ _ identified).bind fun _ _ => pure _
  | _ => exact absurd lasts plain

/-! ### Sessions -/

/-- A question about a class that recognition finds. -/
theorem recover_ofClass {address : Int}
    (found : s.roots.identify s.image address = .ok (some t)) (question : ClassQuery)
    (known : Knowledge) :
    s.recover (.ofClass address question) known = s.askClass t question (known.meet t) := by
  have met : classAt? s.context address known = .ok (some t) (known.meet t) :=
    classAt?_of_identify found known
  rw [recover.eq_def]
  exact bind_ok met

/-- A question about an address at which recognition finds no class. -/
theorem recover_ofClass_none {address : Int} (found : s.roots.identify s.image address = .ok none)
    (question : ClassQuery) (known : Knowledge) :
    s.recover (.ofClass address question) known = .ok .noClass known := by
  have met : classAt? s.context address known = .ok none known := classAt?_of_identify found known
  rw [recover.eq_def]
  exact bind_ok met

/-- A question about an address at which recognition fails. -/
theorem recover_ofClass_error {address : Int} {fault : Fault}
    (failed : s.roots.identify s.image address = .error fault) (question : ClassQuery)
    (known : Knowledge) :
    s.recover (.ofClass address question) known = .error fault known := by
  have stopped : classAt? s.context address known = .error fault known :=
    bind_error (lift_error known failed)
  rw [recover.eq_def]
  exact bind_error stopped

/-- What a query does depends on what is known only when it is asked. -/
theorem recover_withKnown (s : Session) (known : Knowledge) (query : Query) :
    ({ s with known := known } : Session).recover query = s.recover query := by
  cases query with
  | ofClass address question => cases question <;> rfl
  | _ => rfl

/-- **Answers about a class last** in any session that can follow. -/
theorem ofClass_lasts (grounded : s.Grounded) {address : Int} (lasts : question.lasts = true)
    {answer : Answer} (answered : (s.ask (.ofClass address question)).1 = .ok answer)
    (leads : (s.ask (.ofClass address question)).2.Leads later) (still : later.Grounded) :
    (later.ask (.ofClass address question)).1 = .ok answer := by
  have whole : s.Leads later := (ask_leads grounded _).2.trans leads
  have asked := of_ask_ok answered
  cases found : s.roots.identify s.image address with
  | error fault =>
    rw [recover_ofClass_error found] at asked
    cases asked
  | ok found' =>
    cases found' with
    | none =>
      rw [recover_ofClass_none found] at asked
      injection asked with same
      subst same
      rw [ask_ok (recover_ofClass_none ((whole.identify address).trans found) question later.known)]
    | some t =>
      rw [recover_ofClass found] at asked
      -- the class is met again, and the question is asked in a state that knows as much
      have lasting := askClass_lasting whole.context (Context.identified_of_identify found) lasts
      have there := whole.grounded_iff.mp still
      have again := lasting.again (grounded.meet found) asked (there.meet found)
        (leads.known.trans (there.grows_meet found))
      have repeated := recover_ofClass ((whole.identify address).trans found) question later.known
      rw [ask_ok (repeated.trans again)]

/-- **A question about names or bases that was stopped is stopped again** at once. -/
theorem ofClass_stops (grounded : s.Grounded) {address : Int} (plain : question.isPlain = true)
    {fault : Fault} (stopped : (s.ask (.ofClass address question)).1 = .error fault) :
    ((s.ask (.ofClass address question)).2.ask (.ofClass address question)).1 = .error fault := by
  obtain ⟨after, asked⟩ : ∃ after,
      s.recover (.ofClass address question) s.known = .error fault after :=
    ⟨_, of_ask_error stopped⟩
  -- asking again is asking the same question in the state that the fault left behind
  suffices again : ∃ last, s.recover (.ofClass address question) after = .error fault last by
    obtain ⟨last, again⟩ := again
    rw [← s.recover_withKnown after] at again
    rw [ask_error asked]
    show (({ s with known := after } : Session).ask _).1 = _
    rw [ask_error again]
  cases found : s.roots.identify s.image address with
  | error other =>
    rw [recover_ofClass_error found] at asked ⊢
    cases asked
    exact ⟨_, rfl⟩
  | ok found' =>
    cases found' with
    | none =>
      rw [recover_ofClass_none found] at asked
      cases asked
    | some t =>
      rw [recover_ofClass found] at asked ⊢
      have repeating : Repeating s.context Any (s.askClass t question) (s.askClass t question) :=
        askClass_repeating rfl (Context.identified_of_identify found) plain
      obtain ⟨there, grows⟩ := (repeating.keeps (s.known.meet t)).of_error
        ⟨grounded.meet found, .refl _⟩ asked
      -- the class was met before, so meeting it again changes nothing
      have met : after.classes[t.address]? = some t.kind :=
        grows.classes Std.TreeMap.getElem?_insert_self
      have back : (after.meet t).Grows after :=
        { Knowledge.Grows.refl after with
          classes := Cells.forall_insert (fun _ _ kept => kept) met }
      exact repeating.stops (grounded.meet found) asked (there.meet found)
        (there.grows_meet found) back

/-- A question about a class that is answered was asked of the class. -/
theorem of_ofClass_ok {question : ClassQuery} {answer : Answer} {address : Int}
    (isClass : answer ≠ .noClass)
    (answered : (s.ask (.ofClass address question)).1 = .ok answer) :
    ∃ t, t.address = address ∧ s.askClass t question (s.known.meet t) =
      .ok answer (s.ask (.ofClass address question)).2.known := by
  have asked := of_ask_ok answered
  -- Where there is no class, the answer says so.
  cases found : s.roots.identify s.image address with
  | error fault =>
    rw [recover_ofClass_error found] at asked
    cases asked
  | ok found' =>
    cases found' with
    | none =>
      rw [recover_ofClass_none found] at asked
      injection asked with same
      exact absurd same.symm isClass
    | some t =>
      rw [recover_ofClass found] at asked
      exact ⟨t, Roots.address_of_identify found, asked⟩

/-! ### Remembered questions of a session -/

section Cell

variable {address : Int} {α : Type} {question : ClassQuery} (find : Knowledge → Int → Option α)
  (f : α → Answer)
  {keep : TypeInfo → α → Knowledge → Knowledge} {q : TypeInfo → Recover α}
  (asks : ∀ t, s.askClass t question =
    remember (find · t.address) (keep t) (q t) >>= fun a => pure (f a))
include asks

/-- A question that is remembered is answered with what is kept for it.  `find` looks into the table
    that its cell belongs to. -/
theorem ofClass_of_kept {a : α} (has : s.context.HasClass address)
    (kept : ∀ t, find (s.known.meet t) address = some a) :
    (s.ask (.ofClass address question)).1 = .ok (f a) := by
  obtain ⟨t, found⟩ := has
  have asked : s.recover (.ofClass address question) s.known = .ok (f a) (s.known.meet t) := by
    rw [recover_ofClass found, asks]
    refine bind_ok (remember_of_known ?_)
    rw [Roots.address_of_identify found]
    exact kept t
  rw [ask_ok asked]

/-- What it is answered with is kept from then on. -/
theorem kept_of_ofClass (put : ∀ t a known, find (keep t a known) t.address = some a)
    {answer : Answer} (isClass : answer ≠ .noClass)
    (answered : (s.ask (.ofClass address question)).1 = .ok answer) :
    ∃ a, answer = f a ∧ find (s.ask (.ofClass address question)).2.known address = some a := by
  obtain ⟨t, rfl, asked⟩ := of_ofClass_ok isClass answered
  rw [asks] at asked
  obtain ⟨a, after, asked, same⟩ := of_bind_ok asked
  injection same with same known
  rw [← known]
  exact ⟨a, same.symm, known_of_remember (put t) asked⟩

/-- Where it is stopped, its cell is empty: nothing but its answer is put there, and nothing at all
    where there is no class. -/
theorem empty_of_stopped (stays : ∀ t : TypeInfo, Keeps (find · t.address = none) Any (q t))
    (kept : ∀ {a}, find s.known address = some a → s.context.HasClass address) {fault : Fault}
    (stopped : (s.ask (.ofClass address question)).1 = .error fault) :
    find (s.ask (.ofClass address question)).2.known address = none := by
  have asked := of_ask_error stopped
  cases found : s.roots.identify s.image address with
  | error other =>
    rw [recover_ofClass_error found] at asked
    injection asked with _ same
    rw [← same, Option.eq_none_iff_forall_ne_some]
    intro a here
    -- A cell is filled for classes only, and recognition found none.
    obtain ⟨t, recognised⟩ := kept here
    cases recognised.symm.trans found
  | ok found' =>
    cases found' with
    | none =>
      rw [recover_ofClass_none found] at asked
      cases asked
    | some t =>
      rw [recover_ofClass found, asks] at asked
      have empty := empty_of_error (stays t) (of_map_error asked)
      rwa [Roots.address_of_identify found] at empty

end Cell

/-- The class at an address is what recognition finds there, and it is met then. -/
theorem recover_classAt {address : Int} {found : Option TypeInfo}
    (identified : s.roots.identify s.image address = .ok found) (known : Knowledge) :
    s.recover (.classAt address) known = .ok (.classInfo found) (found.elim known known.meet) := by
  have met : classAt? s.context address known = .ok found (found.elim known known.meet) :=
    classAt?_of_identify identified known
  rw [recover.eq_def]
  exact bind_ok met

/-- **A class that was found stays the class at its address.** -/
theorem classAt_lasts {address : Int}
    (answered : (s.ask (.classAt address)).1 = .ok (.classInfo (some t))) :
    s.roots.identify s.image address = .ok (some t) ∧
      (s.ask (.classAt address)).2.known.classes[address]? = some t.kind := by
  have asked := of_ask_ok answered
  cases found : s.roots.identify s.image address with
  | error fault =>
    have stopped : classAt? s.context address s.known = .error fault s.known :=
      bind_error (lift_error s.known found)
    rw [recover.eq_def] at asked
    cases asked.symm.trans (bind_error stopped)
  | ok found' =>
    rw [recover_classAt found] at asked
    injection asked with same known
    injection same with same
    subst same
    refine ⟨rfl, ?_⟩
    rw [← known, ← Roots.address_of_identify found]
    exact Std.TreeMap.getElem?_insert_self

/-- **Answers last.**  After any queries `before`, and whatever is asked and set `between`:
    an answer about the names, the bases or the tables of a class is given again; a class that was
    found is found again, as recognition finds it, and stays among the classes met; and a question
    that a fault stops leaves no answer behind. -/
theorem answers_last (image : Image) (demangle : Demangler) (limits : Limits) (table : Detector)
    (listing : Listing) (before : List Query) (address : Int) :
    let roots := Roots.ofImage image limits.pureVirtualSymbol
    let s := (start image demangle limits table listing).after before
    (∀ (question : ClassQuery) (answer : Answer) (between : List Query),
      question.lasts = true → (s.ask (.ofClass address question)).1 = .ok answer →
      (((s.ask (.ofClass address question)).2.after between).ask (.ofClass address question)).1 =
        .ok answer) ∧
    (∀ (t : TypeInfo) (between : List Query),
      (s.ask (.classAt address)).1 = .ok (.classInfo (some t)) →
      roots.identify image address = .ok (some t) ∧
      (((s.ask (.classAt address)).2.after between).ask (.classAt address)).1 =
        .ok (.classInfo (some t)) ∧
      ((s.ask (.classAt address)).2.after between).known.classes[address]? = some t.kind) ∧
    (∀ kind, s.known.classes[address]? = some kind →
      roots.identify image address = .ok (some ⟨address, kind⟩)) ∧
    (∀ fault, (s.ask (.ofClass address .typeName)).1 = .error fault →
      (s.ask (.ofClass address .typeName)).2.known.names.mangled[address]? = none) ∧
    (∀ fault, (s.ask (.ofClass address .name)).1 = .error fault →
      (s.ask (.ofClass address .name)).2.known.names.display[address]? = none) ∧
    (∀ fault, (s.ask (.ofClass address .uniqueName)).1 = .error fault →
      (s.ask (.ofClass address .uniqueName)).2.known.names.unique[address]? = none) ∧
    (∀ fault, (s.ask (.ofClass address .virtualBases)).1 = .error fault →
      (s.ask (.ofClass address .virtualBases)).2.known.virtualBases[address]? = none) ∧
    (∀ fault, (s.ask (.ofClass address .bases)).1 = .error fault →
      (s.ask (.ofClass address .bases)).2.known.bases[address]? = none) ∧
    (∀ fault, (s.ask (.ofClass address .vtable)).1 = .error fault →
      (s.ask (.ofClass address .vtable)).2.known.vtables[address]? = none) ∧
    (∀ fault, (s.ask (.ofClass address .vtt)).1 = .error fault →
      (s.ask (.ofClass address .vtt)).2.known.vtts[address]? = none) ∧
    ∀ (question : ClassQuery) (fault : Fault), question.isPlain = true →
      (s.ask (.ofClass address question)).1 = .error fault →
      ((s.ask (.ofClass address question)).2.ask (.ofClass address question)).1 =
        .error fault := by
  intro roots s
  obtain ⟨grounded, leads⟩ : s.Grounded ∧ (start image demangle limits table listing).Leads s :=
    after_leads (grounded_start image demangle limits table listing) before
  have identify : s.roots.identify s.image address = roots.identify image address :=
    leads.identify address
  -- what is kept of names is kept for classes only
  have named : ∀ {form name}, s.known.names.find address form = some name →
      s.context.HasClass address := fun kept => (grounded.names kept).1
  refine ⟨?answers, ?classes, ?kinds, ?typeName, ?name, ?uniqueName, ?virtuals, ?bases, ?vtables,
    ?vtts, ?stops⟩
  case answers =>
    intro question answer between lasts answered
    obtain ⟨still, later⟩ := after_leads (ask_leads grounded (.ofClass address question)).1 between
    exact ofClass_lasts grounded lasts answered later still
  case classes =>
    intro t between answered
    obtain ⟨found, met⟩ := classAt_lasts answered
    obtain ⟨next, first⟩ := ask_leads grounded (.classAt address)
    obtain ⟨still, later⟩ := after_leads next between
    refine ⟨identify.symm.trans found, ?_, later.known.classes met⟩
    rw [ask_ok (recover_classAt (((first.trans later).identify address).trans found) _)]
  case kinds =>
    intro kind met
    exact identify.symm.trans (grounded.classes met)
  case typeName =>
    intro fault stopped
    exact empty_of_stopped (·.names.find · .mangled) (fun name => .text (some name)) (fun _ => rfl)
      (s.context.readName_stays · .mangled) named stopped
  case name =>
    intro fault stopped
    exact empty_of_stopped (·.names.find · .display) (fun name => .text (some name)) (fun _ => rfl)
      (s.context.readName_stays · .display) named stopped
  case uniqueName =>
    intro fault stopped
    exact empty_of_stopped (·.names.find · .unique) (fun name => .text (some name)) (fun _ => rfl)
      (s.context.readName_stays · .unique) named stopped
  case virtuals =>
    intro fault stopped
    exact empty_of_stopped (fun known place => known.virtualBases[place]?)
      (fun classes : List TypeInfo => .addresses (classes.map TypeInfo.address)) (fun _ => rfl)
      s.context.collectVirtualBases_stays (fun kept => (grounded.collected kept).hasClass) stopped
  case bases =>
    intro fault stopped
    exact empty_of_stopped (fun known place => known.bases[place]?) .bases (fun _ => rfl)
      (fun t => s.context.readBases_keeps t fun cells => cells[t.address]? = none)
      (fun kept => (grounded.bases kept).1) stopped
  case vtables =>
    intro fault stopped
    exact empty_of_stopped (fun known place => known.vtables[place]?) (fun v => .vtable (some v))
      (fun _ => rfl) (fun t => s.context.locateVtable_keeps t fun cells => cells[t.address]? = none)
      (fun kept => (grounded.vtables kept).1) stopped
  case vtts =>
    intro fault stopped
    exact empty_of_stopped (fun known place => known.vtts[place]?) .vtt (fun _ => rfl)
      (fun t => s.context.locateVtt_keeps t fun cells => cells[t.address]? = none)
      (fun kept => grounded.vtts kept) stopped
  case stops =>
    intro question fault plain stopped
    exact ofClass_stops grounded plain stopped

/-- A session about the small program. -/
def sample : Session :=
  start .sample (fun _ => none) {} (.ofTable []) []

/-- In the small program the ancestors of the derived class are given again when the user has asked
    to stop. -/
theorem answers_last_sample :
    (sample.ask (.ofClass 0x400010 .ancestors)).1 = .ok (.addresses [0x400000]) ∧
      (((sample.ask (.ofClass 0x400010 .ancestors)).2.after
        [.setLimit .maxBaseCount (.text ""), .cancel]).ask (.ofClass 0x400010 .ancestors)).1 =
        .ok (.addresses [0x400000]) := by
  have answered : (sample.ask (.ofClass 0x400010 .ancestors)).1 = .ok (.addresses [0x400000]) := rfl
  have last := (answers_last .sample (fun _ => none) {} (.ofTable []) [] [] 0x400010).1
  exact ⟨answered, last .ancestors _ _ rfl answered⟩

end Session

end ItaniumRtti
