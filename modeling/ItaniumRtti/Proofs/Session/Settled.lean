import ItaniumRtti.Proofs.Reachable
import ItaniumRtti.Proofs.Session.Lasting

namespace ItaniumRtti

/-!
# What an answer settles

An answer is found from words of the program and from answers to smaller questions.  Since those
last, what the answer says stays true in every later state of knowledge, and can be checked there.

* `Recover.Settles` — what the answers of a question say of every later state, and its rules;
* `Context.edges_settles` — a walk lists edges that lead from classes it met;
* `Context.Branches` — a class of the hierarchy describes its bases in the general way;
* `Context.hasSecondaries_settles` — secondary tables are looked for exactly where it branches.
-/

open Recover

namespace Recover

variable {α β : Type} {ctx : Context} {P Q : Knowledge → α → Prop} {q : Recover α}

/-- An answer of the question satisfies `P` in every state that knows as much as the question left
    behind. -/
def Settles (ctx : Context) (P : Knowledge → α → Prop) (q : Recover α) : Prop :=
  ∀ ⦃k after : Knowledge⦄ ⦃a : α⦄, ctx.Grounded k → q k = .ok a after →
    ctx.Grounded after ∧ k.Grows after ∧
      ∀ later, ctx.Grounded later → after.Grows later → P later a

/-- An answer that lasts can be asked for again. -/
theorem Lasting.settles {R : α → Prop} (lasting : Lasting ctx R q q) :
    Settles ctx (fun known a => R a ∧ q known = .ok a known) q := by
  intro k after a grounded answered
  obtain ⟨holds, still, grows⟩ := lasting.of_ok grounded answered
  refine ⟨still, grows, fun later there more => ?_⟩
  exact ⟨holds, lasting.again grounded answered there more⟩

namespace Settles

/-- What an answer settles holds as soon as it is given. -/
theorem now (settles : Settles ctx P q) {k after : Knowledge} {a : α} (grounded : ctx.Grounded k)
    (answered : q k = .ok a after) : P after a := by
  obtain ⟨still, -, holds⟩ := settles grounded answered
  exact holds after still (.refl after)

/-- Less may be said. -/
theorem mono (settles : Settles ctx P q) (weaker : ∀ known a, P known a → Q known a) :
    Settles ctx Q q := by
  intro k after a grounded answered
  obtain ⟨still, grows, holds⟩ := settles grounded answered
  exact ⟨still, grows, fun later there more => weaker later a (holds later there more)⟩

/-- Two things that an answer settles. -/
theorem and (first : Settles ctx P q) (second : Settles ctx Q q) :
    Settles ctx (fun known a => P known a ∧ Q known a) q := by
  intro k after a grounded answered
  obtain ⟨still, grows, holds⟩ := first grounded answered
  obtain ⟨-, -, also⟩ := second grounded answered
  exact ⟨still, grows, fun later there more => ⟨holds later there more, also later there more⟩⟩

/-- Only states in which knowledge is grounded matter. -/
theorem grounded (settles : Settles ctx (fun known a => ctx.Grounded known → P known a) q) :
    Settles ctx P q := by
  intro k after a begins answered
  obtain ⟨still, grows, holds⟩ := settles begins answered
  exact ⟨still, grows, fun later there more => holds later there more there⟩

theorem pure {a : α} (holds : ∀ known, P known a) : Settles ctx P (pure a) := by
  intro k after b grounded answered
  cases answered
  exact ⟨grounded, .refl k, fun later _ _ => holds later⟩

/-- A computation that needs no knowledge settles what it computed. -/
theorem lift (answer : Except Fault α) :
    Settles ctx (fun _ a => answer = .ok a) (Recover.lift answer) := by
  intro k after a grounded answered
  cases answer with
  | ok b =>
    cases answered
    exact ⟨grounded, .refl k, fun _ _ _ => rfl⟩
  | error fault => cases answered

theorem throw (fault : Fault) : Settles ctx P (throw fault) := by
  intro k after a grounded answered
  cases answered

/-- What the first answer settled may be used for the second. -/
theorem bind {T : Knowledge → β → Prop} {f : α → Recover β} (first : Settles ctx P q)
    (second : ∀ a, (∃ known, P known a) →
      Settles ctx (fun known b => P known a → T known b) (f a)) :
    Settles ctx T (q >>= f) := by
  intro k after b grounded answered
  obtain ⟨a, middle, asked, answered⟩ := of_bind_ok answered
  obtain ⟨between, grows, holds⟩ := first grounded asked
  have here := holds middle between (.refl middle)
  obtain ⟨still, more, then'⟩ := second a ⟨middle, here⟩ between answered
  refine ⟨still, grows.trans more, fun later there beyond => ?_⟩
  exact then' later there beyond (holds later there (more.trans beyond))

/-- Whichever way a choice goes. -/
theorem ite {c : Prop} [Decidable c] {r : Recover α} (yes : c → Settles ctx P q)
    (no : ¬ c → Settles ctx P r) : Settles ctx P (if c then q else r) := by
  by_cases holds : c
  · rw [if_pos holds]
    exact yes holds
  · rw [if_neg holds]
    exact no holds

theorem checkCancelled : Settles ctx (fun _ _ => True) (checkCancelled ctx) :=
  .ite (fun _ => .throw _) fun _ => .pure fun _ => trivial

/-- A test is passed by some element of a list, or failed by all. -/
theorem anyM {T : Knowledge → α → Bool → Prop} {f : α → Recover Bool} {l : List α}
    (each : ∀ a ∈ l, Settles ctx (fun known => T known a) (f a)) :
    Settles ctx (fun known found => (found = true → ∃ a ∈ l, T known a true) ∧
      (found = false → ∀ a ∈ l, T known a false)) (l.anyM f) := by
  induction l with
  | nil =>
    refine .pure fun known => ⟨fun found => ?_, fun _ a member => ?_⟩
    · cases found
    · exact absurd member List.not_mem_nil
  | cons a rest ih =>
    obtain ⟨first, others⟩ := List.forall_mem_cons.mp each
    unfold List.anyM
    -- The first element that passes ends the search, and those before it have failed.
    refine first.bind fun passes _ => ?_
    by_cases yes : passes = true
    · subst yes
      refine .pure fun known holds => ⟨fun _ => ?_, fun no => by cases no⟩
      exact ⟨a, List.mem_cons_self .., holds⟩
    · rw [Bool.not_eq_true] at yes
      subst yes
      refine (ih others).mono fun known found rest fails => ⟨fun passed => ?_, fun failed => ?_⟩
      · obtain ⟨b, member, holds⟩ := rest.1 passed
        exact ⟨b, List.mem_cons_of_mem a member, holds⟩
      · exact List.forall_mem_cons.mpr ⟨fails, rest.2 failed⟩

/-- A question asked of each element of a list: every element has an answer, and every answer is
    that of an element. -/
theorem mapM {T : Knowledge → α → β → Prop} {f : α → Recover β} {l : List α}
    (each : ∀ a ∈ l, Settles ctx (fun known => T known a) (f a)) :
    Settles ctx (fun known answers => (∀ a ∈ l, ∃ b ∈ answers, T known a b) ∧
      ∀ b ∈ answers, ∃ a ∈ l, T known a b) (l.mapM f) := by
  induction l with
  | nil =>
    rw [List.mapM_nil]
    exact .pure fun _ => ⟨List.forall_mem_nil _, List.forall_mem_nil _⟩
  | cons a rest ih =>
    obtain ⟨first, others⟩ := List.forall_mem_cons.mp each
    rw [List.mapM_cons]
    refine first.bind fun b _ => (ih others).bind fun answers _ => .pure ?_
    rintro known ⟨each, only⟩ here
    refine ⟨List.forall_mem_cons.mpr ⟨⟨b, List.mem_cons_self .., here⟩, fun c member => ?_⟩,
      List.forall_mem_cons.mpr ⟨⟨a, List.mem_cons_self .., here⟩, fun c member => ?_⟩⟩
    · obtain ⟨d, listed, holds⟩ := each c member
      exact ⟨d, List.mem_cons_of_mem b listed, holds⟩
    · obtain ⟨d, listed, holds⟩ := only c member
      exact ⟨d, List.mem_cons_of_mem a listed, holds⟩

end Settles

end Recover

namespace Context

variable {ctx : Context} {t : TypeInfo} {known : Knowledge}

/-! ### Walks -/

/-- Direct bases are known from then on. -/
theorem bases_settles (identified : ctx.Identified t) :
    Settles ctx (fun known bases => (∀ b ∈ bases, ctx.Identified b.target) ∧
      t.bases ctx known = .ok bases known) (t.bases ctx) :=
  (bases_repeating identified ctx.limits ctx.cancelled).self.settles

/-- The edge `e` leads from one of the `classes` to a base that it is known to have. -/
def LeadsFrom (ctx : Context) (known : Knowledge) (classes : List TypeInfo) (e : Base) : Prop :=
  ∃ c ∈ classes, ∃ bases, c.bases ctx known = .ok bases known ∧ e ∈ bases

/-- More classes may be named. -/
theorem LeadsFrom.mono {classes more : List TypeInfo} {e : Base}
    (leads : ctx.LeadsFrom known classes e) (subset : ∀ c ∈ classes, c ∈ more) :
    ctx.LeadsFrom known more e := by
  obtain ⟨c, member, bases, kept, listed⟩ := leads
  exact ⟨c, subset c member, bases, kept, listed⟩

/-- An edge that a walk lists was pending, or leads from the target of an edge that it lists. -/
theorem edgesFrom_settles (fuel : Nat) (seen : List Int) (pending : List Base)
    (good : ∀ e ∈ pending, ctx.Identified e.target) :
    Settles ctx (fun known edges => ∀ e ∈ edges, ctx.Identified e.target ∧
      (e ∈ pending ∨ ctx.LeadsFrom known (edges.map (·.target)) e))
      (edgesFrom ctx fuel seen pending) := by
  induction fuel generalizing seen pending with
  | zero => exact .pure fun known e member => ⟨good e member, .inl member⟩
  | succ fuel ih =>
    rw [edgesFrom]
    have old : ∀ e ∈ pending.takeWhile (fun e => seen.contains e.target.address), e ∈ pending :=
      fun e member => (List.takeWhile_prefix _).subset member
    have new : ∀ e ∈ pending.dropWhile (fun e => seen.contains e.target.address), e ∈ pending :=
      fun e member => (List.dropWhile_suffix _).subset member
    revert new
    cases pending.dropWhile (fun e => seen.contains e.target.address) with
    | nil => exact fun _ => .pure fun known e member => ⟨good e (old e member), .inl (old e member)⟩
    | cons edge rest =>
      intro new
      obtain ⟨first, others⟩ := List.forall_mem_cons.mp new
      refine (bases_settles (good edge first)).bind fun below answered => ?_
      obtain ⟨-, targets, -⟩ := answered
      have next : ∀ e ∈ below ++ rest, ctx.Identified e.target :=
        List.forall_mem_append.mpr ⟨targets, fun e member => good e (others e member)⟩
      refine (ih _ _ next).bind fun more _ => .pure fun known listed answered e member => ?_
      obtain ⟨-, kept⟩ := answered
      have inside : ∀ c ∈ more.map (·.target),
          c ∈ (pending.takeWhile (fun e => seen.contains e.target.address) ++
            edge :: more).map (·.target) := by
        intro c here
        rw [List.map_append, List.map_cons]
        exact List.mem_append_right _ (List.mem_cons_of_mem _ here)
      rcases List.mem_append.mp member with before | here
      · exact ⟨good e (old e before), .inl (old e before)⟩
      rcases List.mem_cons.mp here with rfl | later
      · exact ⟨good e first, .inl first⟩
      obtain ⟨target, origin⟩ := listed e later
      refine ⟨target, ?_⟩
      rcases origin with waiting | leads
      · rcases List.mem_append.mp waiting with base | waiting
        · -- it is a base of the class that the walk entered last
          refine .inr ⟨edge.target, ?_, below, kept, base⟩
          rw [List.map_append, List.map_cons]
          exact List.mem_append_right _ (List.mem_cons_self ..)
        · exact .inl (others e waiting)
      · exact .inr (leads.mono inside)

/-- The edges below a class are known: they lead from the class or from a class below it. -/
structure Walked (ctx : Context) (known : Knowledge) (t : TypeInfo) (edges : List Base) :
    Prop where
  /-- A walk lists these edges. -/
  listed : t.edges ctx known = .ok edges known
  /-- They lead to classes. -/
  target : ∀ e ∈ edges, ctx.Identified e.target
  /-- They lead from the class or from one of these classes. -/
  origin : ∀ e ∈ edges, ctx.LeadsFrom known (t :: edges.map (·.target)) e

/-- A walk settles all edges below a class and where they come from. -/
theorem edges_settles (identified : ctx.Identified t) :
    Settles ctx (fun known edges => ctx.Walked known t edges) (t.edges ctx) := by
  have again := (edges_repeating ctx.limits ctx.cancelled identified).self.settles
  have listed : Settles ctx (fun known edges => ∀ e ∈ edges, ctx.Identified e.target ∧
      ctx.LeadsFrom known (t :: edges.map (·.target)) e) (t.edges ctx) := by
    unfold TypeInfo.edges
    refine (bases_settles identified).bind fun bases ⟨_, targets, _⟩ => ?_
    refine (edgesFrom_settles _ _ bases targets).mono fun known edges all ⟨_, kept⟩ e member => ?_
    obtain ⟨target, base | leads⟩ := all e member
    · exact ⟨target, t, List.mem_cons_self .., bases, kept, base⟩
    · exact ⟨target, leads.mono fun c here => List.mem_cons_of_mem t here⟩
  refine (again.and listed).mono fun known edges both => ⟨both.1.2, ?_, ?_⟩
  · exact fun e member => (both.2 e member).1
  · exact fun e member => (both.2 e member).2

/-- The ancestors among the targets of the edges below `t`. -/
def ancestorsIn (t : TypeInfo) (edges : List Base) : List TypeInfo :=
  (firstOccurrences (edges.map (·.target))).filter (·.address ≠ t.address)

namespace Walked

variable {edges : List Base} (walked : ctx.Walked known t edges)
include walked

/-- So the ancestors are known. -/
theorem ancestors : t.ancestors ctx known = .ok (ancestorsIn t edges) known :=
  bind_ok walked.listed

/-- All classes that the walk met are recognised ones. -/
theorem identified (self : ctx.Identified t) :
    ∀ c ∈ t :: edges.map (·.target), ctx.Identified c :=
  List.forall_mem_cons.mpr ⟨self, List.forall_mem_map.mpr walked.target⟩

/-- The target of an edge below a class is the class itself or an ancestor. -/
theorem mem_ancestorsIn (self : ctx.Identified t) :
    ∀ c ∈ t :: edges.map (·.target), c ∈ t :: ancestorsIn t edges := by
  intro c member
  rcases List.mem_cons.mp member with rfl | below
  · exact List.mem_cons_self ..
  have all := walked.identified self
  by_cases itself : c.address = t.address
  · rw [(all c member).eq_of_address self itself]
    exact List.mem_cons_self ..
  · -- Of several classes at one address the first is kept; being recognised, they are the same.
    obtain ⟨s, kept, same⟩ := exists_mem_firstOccurrences below
    have listed := List.mem_cons_of_mem t (mem_of_mem_firstOccurrences kept)
    rw [← (all s listed).eq_of_address (all c member) same]
    refine List.mem_cons_of_mem t (List.mem_filter.mpr ⟨kept, decide_eq_true ?_⟩)
    rw [same]
    exact itself

end Walked

/-- Asking for the ancestors settles the edges that they are read off. -/
theorem ancestors_settles (identified : ctx.Identified t) :
    Settles ctx (fun known ancestors => ∃ edges, ctx.Walked known t edges ∧
      ancestors = ancestorsIn t edges) (t.ancestors ctx) :=
  (edges_settles identified).bind fun edges _ => .pure fun _ walked => ⟨edges, walked, rfl⟩

/-- Virtual bases are those of a walk that can be repeated, even where they were collected long
    before. -/
theorem virtualBases_settles (identified : ctx.Identified t) :
    Settles ctx (fun known virtuals => t.virtualBases ctx known = .ok virtuals known ∧
      ∃ edges, ctx.Walked known t edges ∧ virtuals = virtualsIn edges) (t.virtualBases ctx) := by
  intro k after virtuals grounded answered
  have lasting := (virtualBases_repeating ctx.limits ctx.cancelled identified).self
  obtain ⟨-, still, grows⟩ := lasting.of_ok grounded answered
  -- what is kept now was collected from the direct bases that are kept, too
  have kept : after.virtualBases[t.address]? = some virtuals :=
    known_of_remember (virtualsCell t).put answered
  obtain ⟨edges, listed, same⟩ := still.edges_of_collected identified kept
  obtain ⟨-, -, walked⟩ := edges_settles identified still listed
  refine ⟨still, grows, fun later there more => ⟨?_, edges, walked later there more, same⟩⟩
  exact lasting.again grounded answered there more

/-- Places of bases are known from then on. -/
theorem baseOffsets_settles (identified : ctx.Identified t) :
    Settles ctx (fun known placed => t.baseOffsets ctx known = .ok placed known)
      (t.baseOffsets ctx) := by
  have repeating :=
    offsetsBelow_repeating ctx.limits ctx.cancelled ctx.image.classBound identified 0 [t.address] []
  exact repeating.self.settles.mono fun known placed ⟨_, again⟩ => again

/-! ### Branching -/

/-- The class describes its bases in the general way and has some. -/
def Spreads (ctx : Context) (known : Knowledge) (c : TypeInfo) : Prop :=
  c.kind = .general ∧ ∃ bases, c.bases ctx known = .ok bases known ∧ bases ≠ []

/-- The class or an ancestor describes its bases in the general way and has some. -/
def Branches (ctx : Context) (known : Knowledge) (t : TypeInfo) : Prop :=
  ∃ ancestors, t.ancestors ctx known = .ok ancestors known ∧
    ∃ c ∈ t :: ancestors, ctx.Spreads known c

/-- A class with a virtual base somewhere above it branches. -/
theorem Walked.branches {edges : List Base} (walked : ctx.Walked known t edges)
    (grounded : ctx.Grounded known) (identified : ctx.Identified t)
    (virtual : virtualsIn edges ≠ []) : ctx.Branches known t := by
  -- an edge that is virtual leads from a class that describes it so
  obtain ⟨c, listed⟩ := List.exists_mem_of_ne_nil _ virtual
  obtain ⟨e, chosen, -⟩ := List.mem_map.mp (mem_of_mem_firstOccurrences listed)
  obtain ⟨member, is⟩ := List.mem_filter.mp chosen
  obtain ⟨owner, here, bases, kept, base⟩ := walked.origin e member
  have cell : known.bases[owner.address]? = some bases := known_of_bases kept
  refine ⟨_, walked.ancestors, owner, walked.mem_ancestorsIn identified owner here, ?_, bases, kept,
    List.ne_nil_of_mem base⟩
  exact grounded.virtuals (walked.identified identified owner here) cell e base is

/-- Whether a class describes bases in the general way, as it is asked about each class. -/
theorem spreads_settles {c : TypeInfo} (identified : ctx.Identified c) :
    Settles ctx (fun known found => found = true ↔ ctx.Spreads known c)
      (if c.kind = .general then (do return !(← c.bases ctx).isEmpty) else return false) := by
  refine .ite (fun general => ?_) fun other => .pure fun known => ?_
  · refine (bases_settles identified).bind fun bases _ => .pure fun known ⟨_, kept⟩ => ?_
    rw [Bool.not_eq_true', List.isEmpty_eq_false_iff]
    refine ⟨fun any => ⟨general, bases, kept, any⟩, fun ⟨_, bases', kept', any⟩ => ?_⟩
    cases kept.symm.trans kept'
    exact any
  · exact ⟨fun found => absurd found Bool.false_ne_true, fun spreads => absurd spreads.1 other⟩

/-- **Secondary tables are looked for exactly where the hierarchy branches.**  To find out, the
    whole hierarchy is walked over. -/
theorem hasSecondaries_settles (identified : ctx.Identified t) :
    Settles ctx (fun known found => (∃ edges, ctx.Walked known t edges) ∧
      (found = true ↔ ctx.Branches known t)) (t.hasSecondaries ctx) := by
  refine Settles.grounded ?_
  unfold TypeInfo.hasSecondaries
  refine (virtualBases_settles identified).bind fun virtuals _ => .ite (fun any => ?_) fun _ => ?_
  · -- A virtual base is enough: only a class that describes its bases in the general way has one.
    refine .pure fun known ⟨_, edges, walked, same⟩ grounded => ⟨⟨edges, walked⟩, ?_⟩
    rw [Bool.not_eq_true', List.isEmpty_eq_false_iff, same] at any
    exact iff_of_true rfl (walked.branches grounded identified any)
  · refine (ancestors_settles identified).bind fun ancestors ⟨_, edges, walked, same⟩ => ?_
    have good : ∀ c ∈ t :: ancestors, ctx.Identified c := by
      intro c member
      rcases List.mem_cons.mp member with rfl | above
      · exact identified
      · rw [same] at above
        have listed := mem_of_mem_firstOccurrences (List.mem_filter.mp above).1
        exact walked.identified identified c (List.mem_cons_of_mem t listed)
    refine (Settles.anyM fun c member => spreads_settles (good c member)).mono ?_
    rintro known found ⟨yes, no⟩ ⟨edges, walked, rfl⟩ - -
    refine ⟨⟨edges, walked⟩, fun passed => ?_, ?_⟩
    · obtain ⟨c, member, spreads⟩ := yes passed
      exact ⟨_, walked.ancestors, c, member, spreads.mp rfl⟩
    · rintro ⟨ancestors, asked, c, member, spreads⟩
      cases walked.ancestors.symm.trans asked
      by_contra failed
      have all := no (Bool.not_eq_true _ ▸ failed) c member
      exact Bool.false_ne_true (all.mpr spreads)

end Context

end ItaniumRtti
