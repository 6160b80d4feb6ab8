import ItaniumRtti.Proofs.Session.Settled
import Mathlib.Logic.Relation

namespace ItaniumRtti

/-!
# The base graph of a session

What a session answers about the direct bases of a class never changes while the limits stay as they
are, so the classes form a graph that all walks of a session go over.

* `Recover.answer` — the answer of a question, without what it leaves behind;
* `BaseGraph`, `BaseGraph.Edge`, `BaseGraph.WellFormed` — a graph of classes;
* `Context.graph` — the graph in a state of knowledge;
* `Context.Draws` — the invariant: a state of knowledge in which the graph is the given one;
* `Context.upholds_draws` — every question keeps the graph;
* `Recover.Link.within` — one run that is stopped only by given faults;
* `BaseGraph.namingWithin` — nothing stops the questions for names;
* `BaseGraph.WellFormed.locatingWithin` — in a well-formed hierarchy nothing stops the questions
  about names, bases and vtables.
-/

open Recover

/-! ### Answers -/

namespace Recover

variable {α : Type} {q : Recover α} {known : Knowledge}

/-- The answer of a question, or the fault that stops it. -/
def answer (q : Recover α) (known : Knowledge) : Except Fault α :=
  match q known with
  | .ok a _ => .ok a
  | .error fault _ => .error fault

theorem answer_of_ok {a : α} {after : Knowledge} (answered : q known = .ok a after) :
    q.answer known = .ok a := by
  rw [answer, answered]

/-- A question has an answer exactly if its run ends with one. -/
theorem answer_eq_ok_iff {a : α} : q.answer known = .ok a ↔ ∃ after, q known = .ok a after := by
  unfold answer
  cases q known with
  | ok b after => simp only [Except.ok.injEq, EStateM.Result.ok.injEq, exists_and_left, exists_eq',
      and_true]
  | error fault after => simp only [reduceCtorEq, exists_false]

/-- It has a fault exactly if its run ends with one. -/
theorem answer_eq_error_iff {fault : Fault} :
    q.answer known = .error fault ↔ ∃ after, q known = .error fault after := by
  unfold answer
  cases q known with
  | ok a after => simp only [reduceCtorEq, exists_false]
  | error other after => simp only [Except.error.injEq, EStateM.Result.error.injEq,
      exists_and_left, exists_eq', and_true]

end Recover

/-! ### Graphs -/

/-- The direct bases of each class, or what prevents reading them. -/
abbrev BaseGraph := TypeInfo → Except Fault (List Base)

namespace BaseGraph

variable (G : BaseGraph)

/-- The class `d` is a direct base of `c`. -/
def Edge (c d : TypeInfo) : Prop :=
  ∃ bases, G c = .ok bases ∧ ∃ b ∈ bases, b.target = d

/-- The direct bases of every class that can be reached from `t` are known. -/
def WellFormed (t : TypeInfo) : Prop :=
  ∀ c, Relation.ReflTransGen G.Edge t c → ∃ bases, G c = .ok bases

variable {G}

theorem edge_of_mem {c : TypeInfo} {bases : List Base} (known : G c = .ok bases) {b : Base}
    (member : b ∈ bases) : G.Edge c b.target :=
  ⟨bases, known, b, member, rfl⟩

/-- Whether the direct bases of all these classes are known and among them. -/
def closed (G : BaseGraph) (classes : List TypeInfo) : Bool :=
  classes.all fun c => (G c).toOption.any fun bases => bases.all fun b => classes.contains b.target

/-- In a closed list each class has its bases, and they are in the list. -/
theorem of_closed {classes : List TypeInfo} (closed : G.closed classes = true) {c : TypeInfo}
    (member : c ∈ classes) : ∃ bases, G c = .ok bases ∧ ∀ b ∈ bases, b.target ∈ classes := by
  have all := List.all_eq_true.mp closed c member
  cases known : G c with
  | error fault => simp only [known, Except.toOption, Option.any_none, Bool.false_eq_true] at all
  | ok bases =>
    simp only [known, Except.toOption, Option.any_some, List.all_eq_true,
      List.contains_iff_mem] at all
    exact ⟨bases, rfl, all⟩

/-- No edge leaves a list of that kind. -/
theorem mem_of_closed {classes : List TypeInfo} (closed : G.closed classes = true)
    {t c : TypeInfo} (member : t ∈ classes) (path : Relation.ReflTransGen G.Edge t c) :
    c ∈ classes := by
  induction path with
  | refl => exact member
  | tail _ last ih =>
    obtain ⟨bases, known, b, base, rfl⟩ := last
    obtain ⟨bases', known', targets⟩ := of_closed closed ih
    cases known.symm.trans known'
    exact targets b base

/-- A hierarchy that can be listed is well-formed. -/
theorem wellFormed_of_closed {classes : List TypeInfo} (closed : G.closed classes = true)
    {t : TypeInfo} (member : t ∈ classes) : G.WellFormed t := by
  intro c path
  obtain ⟨bases, known, -⟩ := of_closed closed (mem_of_closed closed member path)
  exact ⟨bases, known⟩

end BaseGraph

namespace Context

variable {ctx : Context} {known after : Knowledge} {t : TypeInfo}

/-- The direct bases of each class as they are answered in a state of knowledge. -/
def graph (ctx : Context) (known : Knowledge) : BaseGraph :=
  fun t => (t.bases ctx).answer known

/-- Direct bases that are kept. -/
theorem graph_of_known {bases : List Base} (kept : known.bases[t.address]? = some bases) :
    ctx.graph known t = .ok bases := by
  unfold graph
  rw [TypeInfo.bases]
  exact answer_of_ok (remember_of_known kept)

/-- Other direct bases are read, and whatever else is known does not matter. -/
theorem graph_of_unknown (new : known.bases[t.address]? = none) :
    ctx.graph known t = (t.readBases ctx).answer .initial := by
  unfold graph
  rw [TypeInfo.bases, answer, remember, get_bind, new, answer]
  dsimp only
  rcases (ctx.readBases_alike t known .initial ⟨trivial, trivial⟩).cases with
    ⟨bases, _, _, here, first, -⟩ | ⟨fault, _, _, here, first, -⟩
  · rw [bind_ok here, first]
    rfl
  · rw [bind_error here, first]

/-- What is answered about the bases of a class depends on its cell alone. -/
theorem graph_congr {later : Knowledge} (same : known.bases[t.address]? = later.bases[t.address]?) :
    ctx.graph known t = ctx.graph later t := by
  cases kept : known.bases[t.address]? with
  | some bases => rw [graph_of_known kept, graph_of_known (same.symm.trans kept)]
  | none => rw [graph_of_unknown kept, graph_of_unknown (same.symm.trans kept)]

/-! ### The invariant -/

/-- In the state `known` the direct bases of each class are as in the graph `G`. -/
structure Draws (ctx : Context) (G : BaseGraph) (known : Knowledge) : Prop where
  /-- What is known is about the program. -/
  grounded : ctx.Grounded known
  /-- Direct bases are those of the graph. -/
  graph : ∀ ⦃c⦄, ctx.Identified c → ctx.graph known c = G c

/-- Every state draws a graph, its own. -/
theorem Grounded.draws (grounded : ctx.Grounded known) : ctx.Draws (ctx.graph known) known :=
  ⟨grounded, fun _ _ => rfl⟩

variable {G : BaseGraph}

/-- Only the direct bases that are kept matter. -/
theorem Draws.of_bases {later : Knowledge} (draws : ctx.Draws G known)
    (grounded : ctx.Grounded later) (same : later.bases = known.bases) : ctx.Draws G later where
  grounded := grounded
  graph c identified := by
    rw [← draws.graph identified]
    exact graph_congr (by rw [same])

/-- Keeping the bases of a class that were just read does not change the graph. -/
theorem Draws.keepBases {before k : Knowledge} {bases : List Base}
    (earlier : ctx.Draws G before) (new : before.bases[t.address]? = none)
    (draws : ctx.Draws G k) (identified : ctx.Identified t)
    (targets : ∀ b ∈ bases, ctx.Identified b.target) (read : t.readBases ctx before = .ok bases k) :
    ctx.Draws G { k with bases := k.bases.insert t.address bases } where
  grounded := draws.grounded.keepBases identified new targets read
  graph c found := by
    by_cases same : c.address = t.address
    · -- the graph has the bases that were read, since they were not known at first
      have is := found.eq_of_address identified same
      subst is
      have kept : (k.bases.insert c.address bases)[c.address]? = some bases :=
        Std.TreeMap.getElem?_insert_self
      have fresh : (c.readBases ctx).answer .initial = .ok bases := by
        rcases (ctx.readBases_alike c before .initial ⟨trivial, trivial⟩).cases with
          ⟨_, _, _, here, first, -⟩ | ⟨_, _, _, here, -⟩
        · cases read.symm.trans here
          exact answer_of_ok first
        · cases read.symm.trans here
      calc ctx.graph { k with bases := k.bases.insert c.address bases } c
          = .ok bases := graph_of_known kept
        _ = ctx.graph before c := ((graph_of_unknown new).trans fresh).symm
        _ = G c := earlier.graph identified
    · rw [← draws.graph found]
      refine graph_congr ?_
      rw [Std.TreeMap.getElem?_insert]
      split
      · next equal => exact absurd (Std.compare_eq_iff_eq.mp equal).symm same
      · rfl

/-- **Every question keeps the graph.** -/
theorem upholds_draws (ctx : Context) (G : BaseGraph) :
    ctx.UpholdsCells (ctx.Draws G) ctx.Identified where
  good := identified_of_identify
  -- All but one of the questions leave the cells of the bases as they are.
  meet found draws := draws.of_bases (draws.grounded.meet found) rfl
  mark place draws := draws.of_bases (draws.grounded.mark place) rfl
  named earlier _ draws identified asked :=
    draws.of_bases (draws.grounded.keepName earlier.grounded identified asked) rfl
  listed draws _ kept := (draws.grounded.bases kept).2
  read earlier new draws identified targets asked :=
    earlier.keepBases new draws identified targets asked
  collection draws _ kept := (draws.grounded.collected kept).2
  collected _ _ draws identified targets asked :=
    draws.of_bases (draws.grounded.keepVirtuals identified targets asked) rfl
  served draws _ kept := (draws.grounded.vtables kept).2
  located _ _ draws identified serves _ :=
    draws.of_bases (draws.grounded.keepVtable identified serves) rfl
  vtt {_ _ _ vtt} _ _ draws identified _ :=
    draws.of_bases (draws.grounded.keepVtt identified vtt) rfl
  stores _ draws := draws.of_bases { draws.grounded with } rfl

namespace Draws

variable (draws : ctx.Draws G known)
include draws

/-- Direct bases that the graph has are answered. -/
theorem bases_of_ok (identified : ctx.Identified t) {bases : List Base}
    (listed : G t = .ok bases) : (∀ b ∈ bases, ctx.Identified b.target) ∧
      ∃ after, t.bases ctx known = .ok bases after ∧ ctx.Draws G after := by
  have keeps : Keeps (ctx.Draws G) (fun bases => ∀ b ∈ bases, ctx.Identified b.target)
      (t.bases ctx) := (ctx.upholds_draws G).locating.bases identified
  rw [← draws.graph identified, Context.graph, answer_eq_ok_iff] at listed
  obtain ⟨after, answered⟩ := listed
  obtain ⟨targets, still⟩ := keeps.of_ok draws answered
  exact ⟨targets, after, answered, still⟩

/-- A fault that the graph has instead stops the question. -/
theorem bases_of_error (identified : ctx.Identified t) {fault : Fault}
    (refused : G t = .error fault) : ∃ after, t.bases ctx known = .error fault after := by
  rw [← draws.graph identified, Context.graph, answer_eq_error_iff] at refused
  exact refused

/-- The direct bases of a class are classes. -/
theorem target (identified : ctx.Identified t) {bases : List Base} (listed : G t = .ok bases) :
    ∀ b ∈ bases, ctx.Identified b.target :=
  (draws.bases_of_ok identified listed).1

theorem edge {c d : TypeInfo} (identified : ctx.Identified c) (edge : G.Edge c d) :
    ctx.Identified d := by
  obtain ⟨bases, listed, b, member, rfl⟩ := edge
  exact draws.target identified listed b member

/-- Every class that can be reached from a class is a class. -/
theorem reached {c : TypeInfo} (identified : ctx.Identified t)
    (path : Relation.ReflTransGen G.Edge t c) : ctx.Identified c := by
  induction path with
  | refl => exact identified
  | tail _ last ih => exact draws.edge ih last

end Draws

end Context

/-! ### Questions that are answered -/

namespace Recover

variable {α : Type} {S : Knowledge → Prop} {F : Fault → Prop} {P : α → Prop} {q : Recover α}
  {known : Knowledge}

/-- One run through states that satisfy `S`, as two runs through the same states, stopped only by
    faults of `F`. -/
def Link.within (S : Knowledge → Prop) (F : Fault → Prop) : Link :=
  ⟨fun k k' => k = k' ∧ S k, F⟩

/-- How a question that keeps `S` ends, once its faults are known. -/
theorem Keeps.within (keeps : Keeps S P q)
    (faults : ∀ {k fault after}, S k → q k = .error fault after → F fault) :
    Alike (.within S F) P q q := by
  rintro k _ ⟨rfl, holds⟩
  rcases keeps.ends holds with ⟨a, after, answered, good, still⟩ | ⟨fault, after, stopped, still⟩
  · rw [answered]
    exact .ok good ⟨rfl, still⟩
  · rw [stopped]
    exact .error (faults holds stopped) ⟨rfl, still⟩

/-- More may be said of an answer by the state that it leads to. -/
theorem Alike.refine {Q : α → Prop} (alike : Alike (.within S F) P q q)
    (more : ∀ {k a after}, q k = .ok a after → P a → S after → Q a) :
    Alike (.within S F) Q q q := by
  rintro k _ ⟨rfl, holds⟩
  rcases (alike k k ⟨rfl, holds⟩).cases with
    ⟨a, after, _, answered, -, good, -, still⟩ | ⟨fault, after, _, stopped, -, allowed, -, still⟩
  · rw [answered]
    exact .ok (more answered good still) ⟨rfl, still⟩
  · rw [stopped]
    exact .error allowed ⟨rfl, still⟩

/-- How a question may end: answered as `P` says, or stopped by a fault of `F`. -/
inductive Ends (F : Fault → Prop) (P : α → Knowledge → Prop) :
    EStateM.Result Fault Knowledge α → Prop where
  /-- It is answered. -/
  | ok {a : α} {after : Knowledge} : P a after → Ends F P (.ok a after)
  /-- It is stopped. -/
  | error {fault : Fault} {after : Knowledge} : F fault → Ends F P (.error fault after)

/-- A question asked after another ends as the second says, or is stopped with the first. -/
theorem Ends.bind {β : Type} {f : α → Recover β} {P : α → Knowledge → Prop}
    {Q : β → Knowledge → Prop} (first : Ends F P (q known))
    (second : ∀ a after, P a after → Ends F Q (f a after)) : Ends F Q ((q >>= f) known) := by
  cases asked : q known with
  | ok a after =>
    rw [asked] at first
    cases first with
    | ok holds =>
      rw [bind_ok asked]
      exact second a after holds
  | error fault after =>
    rw [asked] at first
    cases first with
    | error stopped =>
      rw [bind_error asked]
      exact .error stopped

/-- A run that is compared with itself ends in one of these ways. -/
theorem Alike.endsWithin (alike : Alike (.within S F) P q q) (holds : S known) :
    Ends F (fun a after => q known = .ok a after ∧ P a ∧ S after) (q known) := by
  rcases (alike known known ⟨rfl, holds⟩).cases with
    ⟨a, after, _, answered, -, good, -, still⟩ | ⟨fault, after, _, stopped, -, allowed, -⟩
  · rw [answered]
    exact .ok ⟨rfl, good, still⟩
  · rw [stopped]
    exact .error allowed

/-- A question that no fault can stop is answered. -/
theorem Alike.answered (alike : Alike (.within S fun _ => False) P q q) (holds : S known) :
    ∃ a after, q known = .ok a after ∧ P a ∧ S after := by
  have ends := alike.endsWithin holds
  generalize q known = result at ends ⊢
  cases ends with
  | ok holds => exact ⟨_, _, holds⟩
  | error never => exact never.elim

/-- What can be said of its answers. -/
theorem Alike.of_okWithin (alike : Alike (.within S F) P q q) (holds : S known) {a : α}
    {after : Knowledge} (answered : q known = .ok a after) : P a := by
  have ends := alike.endsWithin holds
  rw [answered] at ends
  cases ends with
  | ok said => exact said.2.1

/-- What can be said of the faults that stop it. -/
theorem Alike.fault (alike : Alike (.within S F) P q q) (holds : S known) {fault : Fault}
    {after : Knowledge} (stopped : q known = .error fault after) : F fault := by
  have ends := alike.endsWithin holds
  rw [stopped] at ends
  cases ends with
  | error allowed => exact allowed

end Recover

namespace BaseGraph

variable {ctx : Context} {G : BaseGraph} {F : Fault → Prop} {t : TypeInfo}

/-- Nothing stops the questions for names but what reading words of the program can meet.  `S` is
    what they are to keep. -/
theorem namingWithin {S : Knowledge → Prop} (upholds : ctx.Upholds S ctx.Identified)
    (tolerates : ctx.Tolerates F) :
    Naming ctx ctx.image.relocations (.within S F) ctx.Identified where
  reads := ctx.readsAlike_self
  tolerates := tolerates
  good := Context.identified_of_identify
  meet found := by
    rintro ⟨rfl, holds⟩
    exact ⟨rfl, upholds.meet found holds⟩
  typeNameAt {c} _ := (upholds.typeNameAt c.address).within fun _ stopped =>
    tolerates.resolve _ _ (Context.of_typeNameAt_error stopped).1
  nameCell {c} form identified alike := by
    have keeps : Keeps S Any (c.nameAs ctx form) := upholds.locating.nameAs form identified
    exact keeps.within fun holds stopped => Alike.fault alike holds (of_remember_error stopped).2
  nameOf {c} identified := by
    have keeps : Keeps S Any (Recover.nameOf ctx c) := upholds.locating.nameOf identified
    refine keeps.within fun {k fault after} _ stopped => ?_
    -- whether it is kept or not, only reading the name can be stopped
    have read : Recover.typeNameAt ctx c.address k = .error fault after := by
      rw [Recover.nameOf, get_bind] at stopped
      split at stopped
      · exact (of_remember_error stopped).2
      · exact stopped
    exact tolerates.resolve _ _ (Context.of_typeNameAt_error read).1

/-- **In a well-formed hierarchy nothing stops the questions about names, bases and vtables** but
    what reading words of the program can meet.  `S` is what they are to keep besides the graph. -/
theorem WellFormed.locatingWithin {S : Knowledge → Prop} (wellFormed : G.WellFormed t)
    (upholds : ctx.Upholds S ctx.Identified) (drawn : ∀ {k}, S k → ctx.Draws G k)
    (tolerates : ctx.Tolerates F) :
    Locating ctx ctx.image.relocations (.within S F) ctx.Identified
      (fun c => ctx.Identified c ∧ Relation.ReflTransGen G.Edge t c) where
  toNaming := namingWithin upholds tolerates
  bound := rfl
  bases {c} := by
    rintro ⟨identified, path⟩ k _ ⟨rfl, holds⟩
    obtain ⟨bases, listed⟩ := wellFormed c path
    obtain ⟨targets, after, answered, -⟩ := (drawn holds).bases_of_ok identified listed
    have keeps : Keeps S _ (c.bases ctx) := upholds.locating.bases identified
    show EndAlike _ _ (c.bases ctx k) (c.bases ctx k)
    rw [answered]
    exact .ok (fun b member => ⟨targets b member, path.tail (edge_of_mem listed member)⟩)
      ⟨rfl, (keeps.of_ok holds answered).2⟩
  virtualCell {c} good alike := by
    have keeps : Keeps S _ (c.virtualBases ctx) := upholds.locating.virtualBases good.1
    refine (keeps.within fun holds stopped =>
      Alike.fault alike holds (of_remember_error stopped).2).refine ?_
    intro k classes after answered _ still
    -- the walk that collected them, now or before, would still collect them
    have kept := known_of_remember (Context.virtualsCell c).put answered
    obtain ⟨edges, walked, same⟩ := (drawn still).grounded.edges_of_collected good.1 kept
    have again : c.collectVirtualBases ctx after = .ok classes after := same ▸ bind_ok walked
    exact Alike.of_okWithin alike still again
  named good := good.1

/-- Nor does anything else stop the question for the vtable of a class of the hierarchy, if a
    pointer can hold the address of the class. -/
theorem WellFormed.vtableWithin {S : Knowledge → Prop} (wellFormed : G.WellFormed t)
    (upholds : ctx.UpholdsTables S ctx.Identified) (drawn : ∀ {k}, S k → ctx.Draws G k)
    (tolerates : ctx.Tolerates F) {c : TypeInfo} (identified : ctx.Identified c)
    (path : Relation.ReflTransGen G.Edge t c) (searchable : ctx.Searchable F c.address) :
    Alike (.within S F) (fun v => v.Serves ctx.Identified) (c.vtable ctx) (c.vtable ctx) := by
  have keeps : Keeps S (fun v => v.Serves ctx.Identified) (c.vtable ctx) :=
    upholds.consulting.vtable identified
  -- An answer is no trouble, and a fault is one of locating the vtable, since nothing is asked if
  -- it is kept.
  refine keeps.within fun holds stopped => ?_
  rw [TypeInfo.vtable] at stopped
  obtain ⟨-, stopped⟩ := of_remember_error stopped
  have alike : Alike (.within S F) _ (c.locateVtable ctx) (c.locateVtable ctx) :=
    (wellFormed.locatingWithin upholds.toUpholds drawn tolerates).locateVtable ⟨identified, path⟩
      searchable
  exact alike.fault holds stopped

/-- The questions that only the graph is needed for. -/
theorem WellFormed.locating (wellFormed : G.WellFormed t) (tolerates : ctx.Tolerates F) :
    Locating ctx ctx.image.relocations (.within (ctx.Draws G) F) ctx.Identified
      (fun c => ctx.Identified c ∧ Relation.ReflTransGen G.Edge t c) :=
  wellFormed.locatingWithin (ctx.upholds_draws G).toUpholds (fun draws => draws) tolerates

/-- The same, for states that draw the graph. -/
theorem WellFormed.vtable (wellFormed : G.WellFormed t) (tolerates : ctx.Tolerates F)
    {c : TypeInfo} (identified : ctx.Identified c)
    (path : Relation.ReflTransGen G.Edge t c) (searchable : ctx.Searchable F c.address) :
    Alike (.within (ctx.Draws G) F) Any (c.vtable ctx) (c.vtable ctx) :=
  (wellFormed.vtableWithin (ctx.upholds_draws G).toUpholdsTables (fun draws => draws) tolerates
    identified path searchable).any

end BaseGraph

end ItaniumRtti
