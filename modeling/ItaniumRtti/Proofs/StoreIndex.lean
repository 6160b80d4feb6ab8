import ItaniumRtti.Proofs.Invariant
import ItaniumRtti.Proofs.Reachable
import ItaniumRtti.Session.Basic

namespace ItaniumRtti

/-!
# The index of stores loses nothing

The constructors and destructors of a class are looked for among the functions that store an
address point of the class or of an ancestor.  Looking among all functions finds the same.

* `Context.Covers` — the vtables of all classes that can be reached are known, and their address
  points are listed;
* `TypeInfo.relevantPoints_covers` — the relevant address points of a class are such a list;
* `Context.Covers.stores` — functions that store none of them may be left out;
* `Context.Arises` — the states of knowledge that questions lead to, `TypeInfo.prepare` — what an
  analysis asks before it looks for constructors;
* `TypeInfo.assignments_complete` — so the index leaves nothing out that counts.
-/

open Recover

/-- The vtable of the class at `address` is known to be `v`. -/
def Knowledge.HasVtable (known : Knowledge) (address : Int) (v : Vtable) : Prop :=
  known.vtables[address]? = some v

namespace TypeInfo

variable {ctx : Context} {t : TypeInfo} {known after : Knowledge} {v : Vtable}

theorem vtable_of_hasVtable (has : known.HasVtable t.address v) :
    t.vtable ctx known = .ok v known := by
  rw [TypeInfo.vtable]
  exact remember_of_known has

/-- Once a vtable has been asked for, it is known. -/
theorem hasVtable_of_vtable (answered : t.vtable ctx known = .ok v after) :
    after.HasVtable t.address v := by
  rw [TypeInfo.vtable] at answered
  exact known_of_remember (fun _ _ => Std.TreeMap.getElem?_insert_self) answered

end TypeInfo

namespace Context

variable {ctx : Context} {detector : Option Detector} {Kept : Int → Vtable → Prop}

/-- Less may be asked to stay known. -/
theorem Orderly.mono {known : Knowledge} {Other : Int → Vtable → Prop}
    (orderly : ctx.Orderly detector Kept known) (fewer : ∀ {a v}, Other a v → Kept a v) :
    ctx.Orderly detector Other known :=
  { orderly with kept := fun stays => orderly.kept (fewer stays) }

/-- Everything that is known now may be required to stay. -/
theorem Orderly.now {known : Knowledge} (orderly : ctx.Orderly detector Kept known) :
    ctx.Orderly detector known.HasVtable known :=
  { orderly with kept := fun has => has }

/-- The vtables of all classes that can be reached from `t` are known, and all their address points
    are among `points`. -/
def Covers (ctx : Context) (t : TypeInfo) (points : List Int) (known : Knowledge) : Prop :=
  ∀ {c}, ctx.Below t c → ∃ v, known.HasVtable c.address v ∧ ∀ p ∈ v.addressPoints, p ∈ points

end Context

/-! ### Relevant address points -/

namespace TypeInfo

variable {ctx : Context} {detector : Option Detector} {Kept : Int → Vtable → Prop}
  {F : Fault → Prop} (tolerates : ctx.Tolerates F) (searches : ctx.Searches F)
include tolerates searches

/-- The vtables of a list of classes are known once they have been asked for. -/
theorem vtables_kept {t : TypeInfo} (admits : ctx.Admits F t) {classes : List TypeInfo}
    (below : ∀ c ∈ classes, ctx.Below t c) {known : Knowledge}
    (orderly : ctx.Orderly detector Kept known) :
    (∃ found after, classes.mapM (·.vtable ctx) known = .ok found after ∧
      ctx.Orderly detector known.HasVtable after ∧
      ∀ c ∈ classes, ∃ v ∈ found, after.HasVtable c.address v) ∨
    ∃ fault after, classes.mapM (·.vtable ctx) known = .error fault after ∧ F fault := by
  -- By induction on the classes: a vtable that is known stays known while the others are asked for.
  induction classes generalizing known Kept with
  | nil => exact .inl ⟨[], known, rfl, orderly.now, List.forall_mem_nil _⟩
  | cons c rest ih =>
    obtain ⟨here, others⟩ := List.forall_mem_cons.mp below
    rw [List.mapM_cons]
    rcases (Context.orderly_vtable tolerates searches (admits.below here) here.1).ends
      orderly.now with
      ⟨v, l, answered, -, first⟩ | ⟨fault, l, stopped, allowed, -⟩
    · rw [bind_ok answered]
      rcases ih others first with ⟨found, after, ran, still, kept⟩ | ⟨fault, after, ran, allowed⟩
      · rw [bind_ok ran]
        refine .inl ⟨v :: found, after, rfl, still.mono first.kept, ?_⟩
        refine List.forall_mem_cons.mpr ⟨⟨v, List.mem_cons_self .., ?_⟩, fun c member => ?_⟩
        · exact still.kept (hasVtable_of_vtable answered)
        · obtain ⟨w, listed, has⟩ := kept c member
          exact ⟨w, List.mem_cons_of_mem v listed, has⟩
      · exact .inr ⟨fault, after, bind_error ran, allowed⟩
    · exact .inr ⟨fault, l, bind_error stopped, allowed⟩

/-- The relevant address points of a class are those of all classes that can be reached. -/
theorem relevantPoints_covers {t : TypeInfo} (identified : ctx.Identified t)
    (admits : ctx.Admits F t) {known : Knowledge} (orderly : ctx.Orderly detector Kept known) :
    (∃ points after, t.relevantPoints ctx known = .ok points after ∧
      ctx.Orderly detector known.HasVtable after ∧ ctx.Covers t points after) ∨
    ∃ fault after, t.relevantPoints ctx known = .error fault after ∧ F fault := by
  rw [relevantPoints]
  rcases (Context.orderly_vtable tolerates searches admits identified).ends orderly.now with
    ⟨own, k, answered, -, first⟩ | ⟨fault, k, stopped, allowed, -⟩
  swap
  · exact .inr ⟨fault, k, bind_error stopped, allowed⟩
  rw [bind_ok answered]
  rcases Alike.ends ((Context.stable_orderly.walking tolerates admits).ancestors
    ⟨identified, .self⟩) first.now with
    ⟨ancestors, l, walked, below, second⟩ | ⟨fault, l, stopped, allowed, -⟩
  swap
  · exact .inr ⟨fault, l, bind_error stopped, allowed⟩
  rw [bind_ok walked]
  rcases vtables_kept tolerates searches admits below second with
    ⟨inherited, after, ran, third, kept⟩ | ⟨fault, after, ran, allowed⟩
  swap
  · exact .inr ⟨fault, after, bind_error ran, allowed⟩
  rw [bind_ok ran]
  refine .inl ⟨_, after, rfl, third.mono fun has => second.kept (first.kept has), ?_⟩
  intro c reached
  -- The class itself comes first, and all others that can be reached are its ancestors.
  by_cases self : c = t
  · subst self
    refine ⟨own, third.kept (second.kept (hasVtable_of_vtable answered)), fun p member => ?_⟩
    exact List.mem_flatMap.mpr ⟨own, List.mem_cons_self .., member⟩
  · have ancestor := Context.mem_ancestors identified first.bases walked reached.2 self
    obtain ⟨v, listed, has⟩ := kept c ancestor
    refine ⟨v, has, fun p member => ?_⟩
    exact List.mem_flatMap.mpr ⟨v, List.mem_cons_of_mem own listed, member⟩

end TypeInfo

/-! ### Functions that may be left out -/

namespace Context

variable {ctx : Context} {d : Detector}

/-- Whether a function stores one of `points` into its object. -/
def storesOneOf (d : Detector) (points : List Int) (f : Function) : Bool :=
  (d.onObject f).any (points.contains ·.value)

/-- Functions that store none of the points that cover a class may be left out of its
    correlation. -/
theorem Covers.stores (readable : ctx.image.order.Known) (running : ctx.cancelled = false)
    (fit : ctx.limits.Fit) (answers : ctx.Answers d) {t : TypeInfo}
    (wellFormed : ctx.WellFormed t) {points : List Int} {known : Knowledge}
    (covers : ctx.Covers t points known) :
    StoreSimulation ctx ctx.image.relocations
      (.exceptStores (ctx.Orderly (some d) known.HasVtable) fun _ => False) ctx.Identified
      (ctx.Below t) (fun c v => v.Found ctx.image (ctx.Below c) ∧ ∀ p ∈ v.addressPoints, p ∈ points)
      (· ∈ ctx.image.functions) (storesOneOf d points) (· ∈ points) d where
  toLocating :=
    stable_orderly.locating (ctx.tolerates readable running fit _) (.inr wellFormed)
  again below found := by
    rw [below.1] at found
    cases found
    exact below
  vtable {c} below := by
    obtain ⟨v, has, inside⟩ := covers below
    rintro k _ ⟨⟨book, rfl⟩, orderly, orderly'⟩
    show EndAlike _ _ (c.vtable ctx _) (c.vtable ctx _)
    rw [TypeInfo.vtable_of_hasVtable (orderly.kept has),
      TypeInfo.vtable_of_hasVtable (orderly'.kept has)]
    exact .ok ⟨orderly.vtables below.1 (orderly.kept has), inside⟩ ⟨⟨book, rfl⟩, orderly, orderly'⟩
  serves below found table listed base attached := by
    obtain ⟨s, reached, starts⟩ := found.1.serves table listed base attached
    exact ⟨s, below.trans reached, starts⟩
  storesOf {f} member := by
    rintro k _ ⟨⟨book, rfl⟩, orderly, orderly'⟩
    obtain ⟨after, right, found⟩ := storesOf_spec running answers (orderly.stores d rfl) member
    obtain ⟨after', right', found'⟩ := storesOf_spec running answers (orderly'.stores d rfl) member
    show EndAlike _ Any (Recover.storesOf ctx d f _) (Recover.storesOf ctx d f _)
    rw [found, found']
    exact .ok trivial
      ⟨⟨after', rfl⟩, orderly.withStores rfl right, orderly'.withStores rfl right'⟩
  points _ found := found.2
  -- A function that is left out stores nothing that counts, and asking for its stores changes only
  -- the book.
  skip {f k k'} member unwanted := by
    rintro ⟨⟨book, rfl⟩, orderly, orderly'⟩
    obtain ⟨after, right, found⟩ := storesOf_spec running answers (orderly'.stores d rfl) member
    refine ⟨d.onObject f, _, ?_, ⟨⟨after, rfl⟩, orderly, orderly'.withStores rfl right⟩, ?_⟩
    · show (checkCancelled ctx >>= fun _ => Recover.storesOf ctx d f) _ = _
      rw [checkCancelled_running running, pure_bind]
      exact found
    · intro s listed stored
      have none := List.any_eq_false.mp unwanted s listed
      exact none (List.contains_iff_mem.mpr stored)

end Context

/-! ### States of an analysis -/

/-- Asking `q` leads from one state of knowledge to another, with an answer or without. -/
def Recover.Leads {α : Type} (q : Recover α) (known after : Knowledge) : Prop :=
  (∃ a, q known = .ok a after) ∨ ∃ fault, q known = .error fault after

/-- Where a question leads, the invariant still holds. -/
theorem Recover.Alike.leads {α : Type} {S : Knowledge → Prop} {F : Fault → Prop} {P : α → Prop}
    {q : Recover α} (alike : Alike (.exceptStores S F) P q q) {known after : Knowledge}
    (holds : S known) (leads : q.Leads known after) : S after := by
  rcases alike.ends holds with ⟨a, k, answered, -, still⟩ | ⟨fault, k, stopped, -, still⟩
  · rcases leads with ⟨b, again⟩ | ⟨other, again⟩ <;> cases answered.symm.trans again
    exact still
  · rcases leads with ⟨b, again⟩ | ⟨other, again⟩ <;> cases stopped.symm.trans again
    exact still

/-- The states of knowledge that discovery and the stages of analyses lead to, in any order. -/
inductive Context.Arises (ctx : Context) (detector : Option Detector) : Knowledge → Prop where
  /-- Nothing is known yet. -/
  | initial : Arises ctx detector .initial
  /-- Discovery has ended. -/
  | discover {known after : Knowledge} : Arises ctx detector known →
      (Recover.discover ctx).Leads known after → Arises ctx detector after
  /-- A stage of the analysis of a class has ended. -/
  | stage {known after : Knowledge} {t : TypeInfo} {stage : ClassReport → Recover ClassReport}
      {report : ClassReport} : Arises ctx detector known → ctx.Identified t →
      stage ∈ t.stages ctx detector → (stage report).Leads known after →
      Arises ctx detector after

/-- All states that arise are orderly. -/
theorem Context.Arises.orderly {ctx : Context} {detector : Option Detector}
    (running : ctx.cancelled = false) (answers : ∀ d ∈ detector, ctx.Answers d)
    {known : Knowledge} (arises : ctx.Arises detector known) :
    ctx.Orderly detector (fun _ _ => False) known := by
  have tolerates : ctx.Tolerates Any := tolerates_any ctx
  induction arises with
  | initial => exact orderly_initial
  | discover _ leads orderly =>
    exact Alike.leads ((stable_orderly.naming tolerates).discover (fun _ _ => trivial)
      fun _ _ => .inl trivial) orderly leads
  | @stage _ _ t _ _ _ identified member leads orderly =>
    have sim := orderlyReports (fun _ _ => False) tolerates (.inl trivial) running answers (t := t)
      (.inl fun _ => trivial)
    have each := List.forall₂_same.mp (sim.stages ⟨identified, .self⟩)
    exact (each _ member _).leads orderly leads

namespace TypeInfo

/-- What the functions of a class are looked for with: its vtable, its table of vtables, and the
    relevant address points. -/
def prepare (ctx : Context) (t : TypeInfo) : Recover (Vtable × Option Vtt × List Int) := do
  let v ← t.vtable ctx
  let vtt ← t.vtt ctx
  let points ← t.relevantPoints ctx
  return (v, vtt, points)

variable {ctx : Context} {d : Detector}

/-- The functions of a class are found in three steps. -/
theorem assignments_eq (t : TypeInfo) : t.assignments ctx d = t.prepare ctx >>= fun ready =>
    functionsStoring ctx d ready.2.2 >>= fun candidates =>
      t.correlate ctx ready.1 ready.2.1 candidates d := by
  rw [assignments, prepare]
  simp only [bind_assoc, pure_bind]

/-- The last stage of an analysis puts them into the report, if there is a vtable. -/
theorem stage_assignments {t : TypeInfo} {known k after : Knowledge} {v : Vtable}
    (vtable : t.vtable ctx known = .ok v k) (valid : v.isValid = true) {found : List Assignment}
    (assigned : t.assignments ctx d known = .ok found after) :
    ∃ stage ∈ t.stages ctx (some d), ∀ report,
      stage report known = .ok { report with assignments := found } after := by
  refine ⟨(t.stages ctx (some d)).getLast (List.cons_ne_nil _ _), List.getLast_mem _, ?_⟩
  intro report
  have again : t.vtable ctx k = .ok v k := vtable_of_hasVtable (hasVtable_of_vtable vtable)
  -- The stage asks for the vtable first, and then it is known.
  have later : t.assignments ctx d k = .ok found after := by
    rw [assignments, bind_ok vtable] at assigned
    rw [assignments, bind_ok again]
    exact assigned
  refine (bind_ok vtable).trans ?_
  rw [if_pos valid]
  exact bind_ok later

/-- Once everything is prepared, the vtables of all classes that can be reached are known. -/
theorem prepare_covers (readable : ctx.image.order.Known) (running : ctx.cancelled = false)
    (fit : ctx.limits.Fit) (answers : ctx.Answers d) {t : TypeInfo}
    (identified : ctx.Identified t) (wellFormed : ctx.WellFormed t) {Kept : Int → Vtable → Prop}
    {known : Knowledge} (orderly : ctx.Orderly (some d) Kept known) :
    (∃ v vtt points after, t.prepare ctx known = .ok (v, vtt, points) after ∧
      ctx.Orderly (some d) after.HasVtable after ∧ after.HasVtable t.address v ∧
      ctx.Covers t points after) ∨
    ∃ fault after, t.prepare ctx known = .error fault after ∧ ctx.OutOfRange fault := by
  have tolerates := ctx.tolerates readable running fit ctx.OutOfRange
  have searches : ctx.Searches ctx.OutOfRange := Context.searches_outOfRange
  have admits : ctx.Admits ctx.OutOfRange t := .inr wellFormed
  rw [prepare]
  -- Each of the three questions is answered or stops the preparation.
  rcases (Context.orderly_vtable tolerates searches admits identified).ends orderly.now with
    ⟨v, k, vtable, -, first⟩ | ⟨fault, k, stopped, far, -⟩
  swap
  · exact .inr ⟨fault, k, bind_error stopped, far⟩
  rw [bind_ok vtable]
  have sim := Context.orderlyReports k.HasVtable tolerates searches running
    (fun e given => Option.mem_some_iff.mp given ▸ answers) admits
  rcases (sim.vtt ⟨identified, .self⟩).ends first.now with
    ⟨vtt, l, tables, -, second⟩ | ⟨fault, l, stopped, far, -⟩
  swap
  · exact .inr ⟨fault, l, bind_error stopped, far⟩
  rw [bind_ok tables]
  rcases relevantPoints_covers tolerates searches identified admits second with
    ⟨points, after, listed, third, covers⟩ | ⟨fault, after, stopped, far⟩
  swap
  · exact .inr ⟨fault, after, bind_error stopped, far⟩
  rw [bind_ok listed]
  exact .inl ⟨v, vtt, points, after, rfl, third.now,
    third.kept (second.kept (hasVtable_of_vtable vtable)), covers⟩

/-- **The index of stores loses nothing.**  In every state that an analysis can be in, and for every
    class from which no malformed class can be reached, the index leaves no function out that
    matters: all functions of the program, correlated without the stores that were kept, give the
    same constructors and destructors, in the same order and with the same stores.  These are
    reported if the class has a vtable.  Only a search for a target that no pointer can hold
    prevents the answer.  It is made while the vtable, the table of vtables and the address points
    are prepared, which a correlation of all functions is given too, so neither way has an answer
    then. -/
theorem assignments_complete (ctx : Context) (d : Detector) (readable : ctx.image.order.Known)
    (running : ctx.cancelled = false) (fit : ctx.limits.Fit) (answers : ctx.Answers d)
    {t : TypeInfo} (identified : ctx.Identified t) (wellFormed : ctx.WellFormed t)
    {known : Knowledge} (arises : ctx.Arises (some d) known) :
    (∃ v vtt points ready found after after',
      t.prepare ctx known = .ok (v, vtt, points) ready ∧
      t.assignments ctx d known = .ok found after ∧
      Session.withOwnStores (t.correlate ctx v vtt ctx.image.functions d) ready =
        .ok found after' ∧
      (v.isValid = true → ∃ stage ∈ t.stages ctx (some d), ∀ report,
        stage report known = .ok { report with assignments := found } after)) ∨
    ∃ after, t.prepare ctx known = .error .targetRange after ∧
      t.assignments ctx d known = .error .targetRange after ∧ ¬ ctx.InRange := by
  have orderly := arises.orderly running fun e given => Option.mem_some_iff.mp given ▸ answers
  rcases prepare_covers readable running fit answers identified wellFormed orderly with
    ⟨v, vtt, points, ready, prepared, still, has, covers⟩ | ⟨_, after, stopped, rfl, far⟩
  swap
  · rw [assignments_eq]
    exact .inr ⟨after, stopped, bind_error stopped, far⟩
  obtain ⟨book, right, selected⟩ :=
    Context.functionsStoring_spec running answers (still.stores d rfl) points
  -- The address points of the class are among those that its functions were selected by.
  have own : ctx.Below t t := ⟨identified, .self⟩
  have inside : ∀ p ∈ v.addressPoints, p ∈ points := by
    obtain ⟨w, same, inside⟩ := covers own
    cases Option.some.inj (Eq.trans (Eq.symm has) same)
    exact inside
  have serves : v.Serves (ctx.Below t) := (still.vtables identified has).serves
  have alike := (covers.stores readable running fit answers wellFormed).correlate own serves inside
    vtt ctx.image.functions fun f member => member
  have related : (Link.exceptStores (ctx.Orderly (some d) ready.HasVtable) fun _ => False).states
      { ready with stores := book } { ready with stores := {} } :=
    ⟨⟨{}, rfl⟩, still.withStores rfl right, still.withStores rfl (ctx.soundStores_initial d)⟩
  rcases (alike _ _ related).cases with
    ⟨found, after, after', indexed, full, -⟩ | ⟨_, _, _, _, _, never, _⟩
  swap
  · exact never.elim
  have assigned : t.assignments ctx d known = .ok found after := by
    rw [assignments_eq, bind_ok prepared, bind_ok selected]
    exact indexed
  replace full : t.correlate ctx v vtt ctx.image.functions d { ready with stores := {} } =
    .ok found after' := full
  refine .inl ⟨v, vtt, points, ready, found, after, { after' with stores := ready.stores },
    prepared, assigned, ?_, fun valid => ?_⟩
  · rw [Session.withOwnStores, full]
  · obtain ⟨w, k, vtable, rest⟩ := of_bind_ok prepared
    obtain ⟨_, _, _, rest⟩ := of_bind_ok rest
    obtain ⟨_, _, _, rest⟩ := of_bind_ok rest
    cases rest
    exact stage_assignments vtable valid assigned

end TypeInfo

/-! ### The small program with another function -/

/-- Questions about the small program with one more function. -/
def Context.sampleStores : Context :=
  let main : Symbol := { name := "main", address := 0x600008, isFunction := true }
  { Context.sample with image := { Image.sample with symbols := main :: Image.sample.symbols } }

/-- A detector for it.  The first function stores the address point of the vtable, the other one
    something else. -/
def Detector.sampleStores : Detector :=
  .ofTable [(0x600000, [{ site := 0x600002, value := 0x400038 }]),
    (0x600008, [{ site := 0x60000a, value := 0x400050 }])]

/-- The first function is found with the index and among all functions. -/
theorem TypeInfo.assignments_complete_sample : ∃ v vtt points ready found after',
    prepare .sampleStores ⟨0x400010, .single⟩ .initial = .ok (v, vtt, points) ready ∧
      Session.withOwnStores (correlate .sampleStores ⟨0x400010, .single⟩ v vtt
        Context.sampleStores.image.functions .sampleStores) ready = .ok found after' ∧
      found.map (·.function.address) = [0x600000] := by
  have found : Context.sampleStores.roots.identify Context.sampleStores.image 0x400010 =
      .ok (some ⟨0x400010, .single⟩) := by decide +kernel
  have identified : Context.sampleStores.Identified ⟨0x400010, .single⟩ := found
  have closed : Context.sampleStores.closed [⟨0x400000, .simple⟩, ⟨0x400010, .single⟩] = true := by
    decide +kernel
  have assigned : ((assignments .sampleStores ⟨0x400010, .single⟩ .sampleStores).run'
      .initial).map (·.map (·.function.address)) = some [0x600000] := by decide +kernel
  obtain ⟨found, answer, addresses⟩ := Option.map_eq_some_iff.mp assigned
  obtain ⟨after, answered⟩ := run'_eq_some_iff.mp answer
  have member : (⟨0x400010, .single⟩ : TypeInfo) ∈
      [(⟨0x400000, .simple⟩ : TypeInfo), ⟨0x400010, .single⟩] := by decide
  rcases assignments_complete .sampleStores .sampleStores trivial rfl Limits.fit_default
    (fun f _ => ⟨_, rfl⟩) identified (Context.wellFormed_of_closed closed member) .initial with
    ⟨v, vtt, points, ready, other, _, after', prepared, again, full, -⟩ | ⟨_, -, stopped, -⟩
  · cases answered.symm.trans again
    exact ⟨v, vtt, points, ready, found, after', prepared, full, addresses⟩
  · cases answered.symm.trans stopped

end ItaniumRtti
