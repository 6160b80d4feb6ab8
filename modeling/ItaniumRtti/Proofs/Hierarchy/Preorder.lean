import ItaniumRtti.Proofs.Hierarchy.Descriptors
import ItaniumRtti.Proofs.Hierarchy.Graph

namespace ItaniumRtti

/-!
# Walks are in preorder

A walk over the base graph keeps a list of pending edges.  It meets the same edges and enters the
same classes, in the same order, as the recursive walk that goes through the bases of a class one
after the other and below each of them first.

* `BaseGraph.Walk` — the recursive walk;
* `BaseGraph.Walk.of_append`, `BaseGraph.Walk.closed`, … — what such a walk enters;
* `Context.Draws.edgesFrom` — the walk with pending edges ends as the recursive walk does;
* `Session.ancestors_exact` — the ancestors of a class are the classes that the recursive walk
  enters.
-/

open Recover

namespace BaseGraph

/-- The recursive depth-first walk along a list of edges, when the classes `seen` have been entered
    before: the edges that it meets and the classes that it enters, both in order. -/
inductive Walk (G : BaseGraph) :
    List TypeInfo → List Base → List Base → List TypeInfo → Prop where
  /-- No edge is left. -/
  | done {seen : List TypeInfo} : Walk G seen [] [] []
  /-- An edge to a class that has been entered is met and not followed. -/
  | old {seen entered : List TypeInfo} {e : Base} {rest met : List Base} :
      e.target ∈ seen → Walk G seen rest met entered → Walk G seen (e :: rest) (e :: met) entered
  /-- Another edge is followed before the edges that are left. -/
  | enter {seen enteredBelow enteredAfter : List TypeInfo} {e : Base}
      {rest bases metBelow metAfter : List Base} :
      e.target ∉ seen → G e.target = .ok bases →
      Walk G (seen ++ [e.target]) bases metBelow enteredBelow →
      Walk G (seen ++ e.target :: enteredBelow) rest metAfter enteredAfter →
      Walk G seen (e :: rest) (e :: (metBelow ++ metAfter))
        (e.target :: (enteredBelow ++ enteredAfter))

namespace Walk

variable {G : BaseGraph} {seen entered : List TypeInfo} {edges met : List Base}

/-- Edges to classes that have been entered, then others. -/
theorem olds {first : List Base} (all : ∀ e ∈ first, e.target ∈ seen)
    (walk : G.Walk seen edges met entered) :
    G.Walk seen (first ++ edges) (first ++ met) entered := by
  induction first with
  | nil => exact walk
  | cons e rest ih =>
    obtain ⟨here, others⟩ := List.forall_mem_cons.mp all
    exact .old here (ih others)

/-- A walk along two lists of edges is a walk along the first and then along the second. -/
theorem of_append (walk : G.Walk seen edges met entered) {first second : List Base}
    (split : edges = first ++ second) :
    ∃ met₁ met₂ entered₁ entered₂, G.Walk seen first met₁ entered₁ ∧
      G.Walk (seen ++ entered₁) second met₂ entered₂ ∧ met = met₁ ++ met₂ ∧
      entered = entered₁ ++ entered₂ := by
  induction walk generalizing first with
  | done =>
    obtain ⟨rfl, rfl⟩ := List.nil_eq_append_iff.mp split
    exact ⟨[], [], [], [], .done, .done, rfl, rfl⟩
  | @old seen entered e rest met known walk ih =>
    cases first with
    | nil =>
      rw [List.nil_append] at split
      refine ⟨[], e :: met, [], entered, .done, ?_, rfl, rfl⟩
      rw [← split, List.append_nil]
      exact .old known walk
    | cons e' first =>
      rw [List.cons_append, List.cons.injEq] at split
      obtain ⟨rfl, rfl⟩ := split
      obtain ⟨met₁, met₂, entered₁, entered₂, one, two, rfl, rfl⟩ := ih rfl
      exact ⟨e :: met₁, met₂, entered₁, entered₂, .old known one, two, rfl, rfl⟩
  | @enter seen enteredBelow enteredAfter e rest bases metBelow metAfter new listed below after
      _ ih =>
    cases first with
    | nil =>
      rw [List.nil_append] at split
      refine ⟨[], _, [], _, .done, ?_, rfl, rfl⟩
      rw [← split, List.append_nil]
      exact .enter new listed below after
    | cons e' first =>
      rw [List.cons_append, List.cons.injEq] at split
      obtain ⟨rfl, rfl⟩ := split
      obtain ⟨met₁, met₂, entered₁, entered₂, one, two, rfl, rfl⟩ := ih rfl
      refine ⟨_, met₂, _, entered₂, .enter new listed below one, ?_, ?_, ?_⟩
      · rw [List.append_assoc, List.cons_append] at two
        exact two
      · rw [List.cons_append, List.append_assoc]
      · rw [List.cons_append, List.append_assoc]

/-- A walk is determined by its edges. -/
theorem unique (walk : G.Walk seen edges met entered) {met' : List Base} {entered' : List TypeInfo}
    (other : G.Walk seen edges met' entered') : met' = met ∧ entered' = entered := by
  -- Whether an edge is followed depends on the classes seen, which are the same in both walks.
  induction walk generalizing met' entered' with
  | done =>
    cases other
    exact ⟨rfl, rfl⟩
  | old known _ ih =>
    cases other with
    | old _ rest =>
      obtain ⟨rfl, rfl⟩ := ih rest
      exact ⟨rfl, rfl⟩
    | enter new => exact absurd known new
  | enter new listed _ _ ihBelow ihAfter =>
    cases other with
    | old known => exact absurd known new
    | enter _ listed' below after =>
      cases listed.symm.trans listed'
      obtain ⟨rfl, rfl⟩ := ihBelow below
      obtain ⟨rfl, rfl⟩ := ihAfter after
      exact ⟨rfl, rfl⟩

/-- No class is entered twice. -/
theorem nodup (walk : G.Walk seen edges met entered) (distinct : seen.Nodup) :
    (seen ++ entered).Nodup := by
  induction walk with
  | done =>
    rw [List.append_nil]
    exact distinct
  | old _ _ ih => exact ih distinct
  | enter new _ _ _ ihBelow ihAfter =>
    -- What was entered below counts as seen when the walk goes on with the other edges.
    have more := ihBelow (List.nodup_append.mpr ⟨distinct, List.nodup_singleton _, ?_⟩)
    · rw [List.append_assoc, List.singleton_append] at more
      have all := ihAfter more
      rw [List.append_assoc, List.cons_append] at all
      exact all
    · rintro c old d here rfl
      exact new (List.mem_singleton.mp here ▸ old)

/-- The targets of the edges have been entered when the walk ends. -/
theorem target_mem (walk : G.Walk seen edges met entered) :
    ∀ e ∈ edges, e.target ∈ seen ++ entered := by
  induction walk with
  | done => exact List.forall_mem_nil _
  | old known _ ih =>
    exact List.forall_mem_cons.mpr ⟨List.mem_append_left _ known, ih⟩
  | enter _ _ _ _ _ ih =>
    refine List.forall_mem_cons.mpr ⟨?_, fun e member => ?_⟩
    · exact List.mem_append_right _ (List.mem_cons_self ..)
    · have there := ih e member
      rw [List.append_assoc, List.cons_append] at there
      exact there

/-- The bases of a class that was entered have been entered when the walk ends. -/
theorem closed (walk : G.Walk seen edges met entered) {c : TypeInfo} (member : c ∈ entered) :
    ∃ bases, G c = .ok bases ∧ ∀ b ∈ bases, b.target ∈ seen ++ entered := by
  induction walk with
  | done => cases member
  | old _ _ ih => exact ih member
  | @enter seen enteredBelow enteredAfter e _ bases _ _ _ listed below _ ihBelow ihAfter =>
    -- what the walk below has entered is part of what the whole walk has
    have part : ∀ {d : TypeInfo}, d ∈ seen ++ [e.target] ++ enteredBelow →
        d ∈ seen ++ e.target :: (enteredBelow ++ enteredAfter) := by
      intro d here
      rw [List.append_assoc, List.singleton_append] at here
      have all := List.mem_append_left enteredAfter here
      rwa [List.append_assoc, List.cons_append] at all
    rcases List.mem_cons.mp member with rfl | later
    · exact ⟨bases, listed, fun b base => part (below.target_mem b base)⟩
    rcases List.mem_append.mp later with inner | outer
    · obtain ⟨bases, known, targets⟩ := ihBelow inner
      exact ⟨bases, known, fun b base => part (targets b base)⟩
    · obtain ⟨bases, known, targets⟩ := ihAfter outer
      refine ⟨bases, known, fun b base => ?_⟩
      have all := targets b base
      rwa [List.append_assoc, List.cons_append] at all

/-- A class that is entered can be reached along one of the edges. -/
theorem reaches (walk : G.Walk seen edges met entered) {c : TypeInfo} (member : c ∈ entered) :
    ∃ e ∈ edges, Relation.ReflTransGen G.Edge e.target c := by
  induction walk with
  | done => cases member
  | old _ _ ih =>
    obtain ⟨e, here, path⟩ := ih member
    exact ⟨e, List.mem_cons_of_mem _ here, path⟩
  | @enter _ _ _ first _ _ _ _ _ listed _ _ ihBelow ihAfter =>
    rcases List.mem_cons.mp member with rfl | later
    · exact ⟨_, List.mem_cons_self .., .refl⟩
    -- A class entered below is reached along the edge just followed, any other along a later one.
    rcases List.mem_append.mp later with inner | outer
    · obtain ⟨b, base, path⟩ := ihBelow inner
      exact ⟨first, List.mem_cons_self .., .head (edge_of_mem listed base) path⟩
    · obtain ⟨e, here, path⟩ := ihAfter outer
      exact ⟨e, List.mem_cons_of_mem _ here, path⟩

section

variable {t : TypeInfo} {bases : List Base} (listed : G t = .ok bases)
  (walk : G.Walk [t] bases met entered)
include listed walk

/-- The walk from a class enters all bases of the classes that it enters. -/
theorem bases_mem {c : TypeInfo} (member : c ∈ t :: entered) :
    ∃ bases, G c = .ok bases ∧ ∀ b ∈ bases, b.target ∈ t :: entered := by
  rcases List.mem_cons.mp member with rfl | below
  · exact ⟨bases, listed, walk.target_mem⟩
  · exact walk.closed below

/-- It enters every class that can be reached. -/
theorem mem_of_reaches {c : TypeInfo} (path : Relation.ReflTransGen G.Edge t c) :
    c ∈ t :: entered := by
  induction path with
  | refl => exact List.mem_cons_self ..
  | tail _ last ih =>
    obtain ⟨bases, known, b, base, rfl⟩ := last
    obtain ⟨bases', known', targets⟩ := walk.bases_mem listed ih
    cases known.symm.trans known'
    exact targets b base

/-- A walk from a class that ends has found the bases of every class that can be reached. -/
theorem wellFormed : G.WellFormed t := by
  intro c path
  obtain ⟨bases, known, -⟩ := walk.bases_mem listed (walk.mem_of_reaches listed path)
  exact ⟨bases, known⟩

/-- The classes that the walk from a class enters are those that can be reached, the class itself
    left out. -/
theorem mem_entered_iff {c : TypeInfo} :
    c ∈ entered ↔ Relation.TransGen G.Edge t c ∧ c ≠ t := by
  constructor
  · intro member
    obtain ⟨b, base, path⟩ := walk.reaches member
    refine ⟨.head' (edge_of_mem listed base) path, ?_⟩
    rintro rfl
    exact (List.nodup_cons.mp (walk.nodup (List.nodup_singleton _))).1 member
  · rintro ⟨path, other⟩
    exact (List.mem_cons.mp (walk.mem_of_reaches listed path.to_reflTransGen)).resolve_left other

end

end Walk

end BaseGraph

/-! ### Walks with pending edges -/

/-- Where a list is cut after the elements that satisfy `p` from its start on. -/
theorem dropWhile_cases {α : Type} (p : α → Bool) (l : List α) :
    (l.dropWhile p = [] ∧ ∀ a ∈ l, p a = true) ∨
    ∃ a rest, l = l.takeWhile p ++ a :: rest ∧ l.dropWhile p = a :: rest ∧
      (∀ b ∈ l.takeWhile p, p b = true) ∧ p a = false := by
  cases cut : l.dropWhile p with
  | nil => exact .inl ⟨rfl, List.dropWhile_eq_nil_iff.mp cut⟩
  | cons a rest =>
    have split := List.takeWhile_append_dropWhile (p := p) (l := l)
    have first := List.head?_dropWhile_not p l
    rw [cut] at split first
    exact .inr ⟨a, rest, split.symm, rfl, fun b member => List.mem_takeWhile_imp member, first⟩

/-- What a step of a walk does: it ends if all pending edges lead to classes that have been entered,
    and otherwise enters the target of the first other edge. -/
theorem Recover.edgesFrom_step (ctx : Context) (fuel : Nat) (seen : List Int)
    (pending : List Base) :
    (edgesFrom ctx (fuel + 1) seen pending = pure pending ∧
      ∀ e ∈ pending, e.target.address ∈ seen) ∨
    ∃ old edge rest, pending = old ++ edge :: rest ∧ (∀ e ∈ old, e.target.address ∈ seen) ∧
      edge.target.address ∉ seen ∧
      edgesFrom ctx (fuel + 1) seen pending = do
        let below ← edge.target.bases ctx
        let more ← edgesFrom ctx fuel (edge.target.address :: seen) (below ++ rest)
        return old ++ edge :: more := by
  rw [edgesFrom]
  rcases dropWhile_cases (fun e : Base => seen.contains e.target.address) pending with
    ⟨none, all⟩ | ⟨edge, rest, split, cut, old, new⟩
  · simp only [List.contains_iff_mem] at all
    -- If nothing is left over, all pending edges are listed as they are.
    have whole := List.takeWhile_append_dropWhile (p := fun e : Base =>
      seen.contains e.target.address) (l := pending)
    rw [none, List.append_nil] at whole
    exact .inl ⟨by rw [none, whole], all⟩
  · simp only [List.contains_iff_mem] at old
    refine .inr ⟨_, edge, rest, split, old, fun entered => ?_, by rw [cut]⟩
    exact Bool.false_ne_true (new.symm.trans (List.contains_iff_mem.mpr entered))

namespace Context

variable {ctx : Context} {G : BaseGraph} {known : Knowledge}

/-- Whether a class is in a list can be seen from its address. -/
theorem Identified.mem_map_address_iff {t : TypeInfo} (identified : ctx.Identified t)
    {classes : List TypeInfo} (all : ∀ c ∈ classes, ctx.Identified c) :
    t.address ∈ (classes.map (·.address)).reverse ↔ t ∈ classes := by
  rw [List.mem_reverse]
  refine ⟨fun member => ?_, List.mem_map_of_mem⟩
  obtain ⟨c, here, same⟩ := List.mem_map.mp member
  exact (all c here).eq_of_address identified same ▸ here

/-- Different classes have different addresses. -/
theorem nodup_map_address {classes : List TypeInfo} (all : ∀ c ∈ classes, ctx.Identified c)
    (nodup : classes.Nodup) : (classes.map (·.address)).Nodup :=
  List.Nodup.map_on (fun c here d there same => (all c here).eq_of_address (all d there) same) nodup

/-- There are no more classes than addresses that can be classes. -/
theorem length_le_places {classes : List TypeInfo} (all : ∀ c ∈ classes, ctx.Identified c)
    (nodup : classes.Nodup) : classes.length ≤ ctx.image.places.length := by
  have inside : ∀ a ∈ classes.map (·.address), a ∈ ctx.image.places :=
    List.forall_mem_map.mpr fun c member => (all c member).mem_places
  have most := (List.subperm_of_subset (nodup_map_address all nodup) inside).length_le
  rwa [List.length_map] at most

/-- **A walk with pending edges ends as the recursive walk does.**  It meets the same edges, or is
    stopped by what prevents reading the bases of a class that can be reached. -/
theorem Draws.edgesFrom (draws : ctx.Draws G known) {fuel : Nat} {seen : List TypeInfo}
    {pending : List Base} (entered : ∀ c ∈ seen, ctx.Identified c) (nodup : seen.Nodup)
    (targets : ∀ e ∈ pending, ctx.Identified e.target)
    (enough : ctx.image.places.length < fuel + seen.length) :
    (∃ met more after,
      Recover.edgesFrom ctx fuel (seen.map (·.address)).reverse pending known = .ok met after ∧
      ctx.Draws G after ∧ G.Walk seen pending met more) ∨
    ∃ c fault after,
      Recover.edgesFrom ctx fuel (seen.map (·.address)).reverse pending known =
        .error fault after ∧
      G c = .error fault ∧ ∃ e ∈ pending, Relation.ReflTransGen G.Edge e.target c := by
  -- each step enters a class, so there is fuel for every address that is not entered yet
  induction fuel generalizing seen pending known with
  | zero =>
    have most := length_le_places entered nodup
    omega
  | succ fuel ih =>
    have isOld : ∀ e ∈ pending,
        (e.target.address ∈ (seen.map (·.address)).reverse ↔ e.target ∈ seen) :=
      fun e member => (targets e member).mem_map_address_iff entered
    rcases edgesFrom_step ctx fuel (seen.map (·.address)).reverse pending with
      ⟨ends, all⟩ | ⟨old, edge, rest, rfl, all, new, step⟩
    · rw [ends]
      refine .inl ⟨pending, [], known, rfl, draws, ?_⟩
      have walk := BaseGraph.Walk.olds (fun e member => (isOld e member).mp (all e member))
        (.done (G := G))
      rwa [List.append_nil] at walk
    rw [step]
    obtain ⟨before, ahead⟩ := List.forall_mem_append.mp isOld
    obtain ⟨is, later⟩ := List.forall_mem_cons.mp ahead
    obtain ⟨-, targetsAhead⟩ := List.forall_mem_append.mp targets
    obtain ⟨identified, targetsLater⟩ := List.forall_mem_cons.mp targetsAhead
    rw [is] at new
    cases listed : G edge.target with
    | error fault =>
      obtain ⟨after, stopped⟩ := draws.bases_of_error identified listed
      refine .inr ⟨edge.target, fault, after, bind_error stopped, listed, edge, ?_, .refl⟩
      exact List.mem_append_right _ (List.mem_cons_self ..)
    | ok below =>
      obtain ⟨targetsBelow, middle, answered, still⟩ := draws.bases_of_ok identified listed
      rw [bind_ok answered]
      -- the pending edges are now those below the target and those that were left
      have enteredNow : ∀ c ∈ seen ++ [edge.target], ctx.Identified c :=
        List.forall_mem_append.mpr ⟨entered, List.forall_mem_singleton.mpr identified⟩
      have targetsNow : ∀ e ∈ below ++ rest, ctx.Identified e.target :=
        List.forall_mem_append.mpr ⟨targetsBelow, targetsLater⟩
      have deeper := ih still enteredNow
        (List.nodup_append.mpr ⟨nodup, List.nodup_singleton _, fun c here d there same =>
          new (List.mem_singleton.mp there ▸ same ▸ here)⟩)
        targetsNow (by rw [List.length_append, List.length_singleton]; omega)
      rw [List.map_append, List.map_singleton, List.reverse_append, List.reverse_singleton,
        List.singleton_append] at deeper
      rcases deeper with
        ⟨met, more, after, found, last, walk⟩ | ⟨c, fault, after, stopped, failed, e, from_, path⟩
      · rw [bind_ok found]
        obtain ⟨met₁, met₂, more₁, more₂, first, second, rfl, rfl⟩ := walk.of_append rfl
        rw [List.append_assoc, List.singleton_append] at second
        have walk := BaseGraph.Walk.olds (fun e member => (before e member).mp (all e member))
          (.enter new listed first second)
        exact .inl ⟨_, _, after, rfl, last, walk⟩
      · rw [bind_error stopped]
        refine .inr ⟨c, fault, after, rfl, failed, ?_⟩
        rcases List.mem_append.mp from_ with base | waiting
        · refine ⟨edge, List.mem_append_right _ (List.mem_cons_self ..), ?_⟩
          exact .head (BaseGraph.edge_of_mem listed base) path
        · exact ⟨e, List.mem_append_right _ (List.mem_cons_of_mem _ waiting), path⟩

/-- The walk from a class. -/
theorem Draws.edges (draws : ctx.Draws G known) {t : TypeInfo} (identified : ctx.Identified t) :
    (∃ bases met more after, G t = .ok bases ∧ t.edges ctx known = .ok met after ∧
      ctx.Draws G after ∧ G.Walk [t] bases met more) ∨
    ∃ c fault after, t.edges ctx known = .error fault after ∧ G c = .error fault ∧
      Relation.ReflTransGen G.Edge t c := by
  rw [TypeInfo.edges]
  cases listed : G t with
  | error fault =>
    obtain ⟨after, stopped⟩ := draws.bases_of_error identified listed
    exact .inr ⟨t, fault, after, bind_error stopped, listed, .refl⟩
  | ok bases =>
    obtain ⟨targets, middle, answered, still⟩ := draws.bases_of_ok identified listed
    rw [bind_ok answered]
    have entered : ∀ c ∈ [t], ctx.Identified c := List.forall_mem_singleton.mpr identified
    -- There is fuel for as many classes as the image has places, so only a class whose bases cannot
    -- be read ends the walk early.
    rcases still.edgesFrom entered (List.nodup_singleton t) targets
      (Nat.lt_succ_of_lt ctx.image.length_places) with
      ⟨met, more, after, found, last, walk⟩ | ⟨c, fault, after, stopped, failed, e, base, path⟩
    · exact .inl ⟨bases, met, more, after, rfl, found, last, walk⟩
    · exact .inr ⟨c, fault, after, stopped, failed, .head (BaseGraph.edge_of_mem listed base) path⟩

/-- If a walk from a class ends, the hierarchy above the class is well-formed. -/
theorem Draws.wellFormed (draws : ctx.Draws G known) {t : TypeInfo} (identified : ctx.Identified t)
    {met : List Base} {after : Knowledge} (answered : t.edges ctx known = .ok met after) :
    G.WellFormed t := by
  rcases draws.edges identified with
    ⟨bases, _, _, _, listed, -, -, walk⟩ | ⟨_, _, _, stopped, -, -⟩
  · exact walk.wellFormed listed
  · cases answered.symm.trans stopped

end Context

/-! ### Ancestors -/

/-- The classes of a list in the order in which they first occur, after some that occurred
    before. -/
def firstOccurrencesAfter (seen classes : List TypeInfo) : List TypeInfo :=
  classes.foldl (fun seen t => if seen.any (·.address == t.address) then seen else seen ++ [t]) seen

/-- A class is added unless one at its address occurred before. -/
theorem firstOccurrencesAfter_cons (seen : List TypeInfo) (c : TypeInfo) (rest : List TypeInfo) :
    firstOccurrencesAfter seen (c :: rest) =
      firstOccurrencesAfter (if seen.any (·.address == c.address) then seen else seen ++ [c])
        rest :=
  rfl

/-- Two lists are gone through one after the other. -/
theorem firstOccurrencesAfter_append (seen first second : List TypeInfo) :
    firstOccurrencesAfter seen (first ++ second) =
      firstOccurrencesAfter (firstOccurrencesAfter seen first) second :=
  List.foldl_append

/-- If one class is left out of the result, it does not matter whether it occurred before. -/
theorem filter_firstOccurrencesAfter {t : TypeInfo} {seen seen' : List TypeInfo}
    (same : seen.filter (·.address ≠ t.address) = seen'.filter (·.address ≠ t.address))
    (classes : List TypeInfo) :
    (firstOccurrencesAfter seen classes).filter (·.address ≠ t.address) =
      (firstOccurrencesAfter seen' classes).filter (·.address ≠ t.address) := by
  induction classes generalizing seen seen' with
  | nil => exact same
  | cons c rest ih =>
    rw [firstOccurrencesAfter_cons, firstOccurrencesAfter_cons]
    refine ih ?_
    by_cases left : c.address = t.address
    · -- the class is left out, whether or not it is added
      have added : ∀ seen : List TypeInfo,
          (if seen.any (·.address == c.address) then seen else seen ++ [c]).filter
            (·.address ≠ t.address) = seen.filter (·.address ≠ t.address) := by
        intro seen
        split
        · rfl
        · rw [List.filter_append, List.filter_singleton, left]
          simp only [ne_eq, not_true_eq_false, decide_false, cond_false, List.append_nil]
      rw [added, added, same]
    · -- another class is looked for among those that are not left out
      have among : ∀ seen : List TypeInfo, seen.any (·.address == c.address) =
          (seen.filter (·.address ≠ t.address)).any (·.address == c.address) := by
        intro seen
        rw [List.any_filter]
        refine congrArg seen.any (funext fun d => ?_)
        by_cases here : d.address = c.address
        · simp only [here, ne_eq, left, not_false_eq_true, decide_true, Bool.true_and]
        · simp only [beq_eq_false_iff_ne.mpr here, Bool.and_false]
      rw [among seen, among seen', same]
      split
      · exact same
      · rw [List.filter_append, List.filter_append, same]

namespace Context

variable {ctx : Context} {G : BaseGraph} {known : Knowledge}

/-- The classes that a walk enters are those that it meets first. -/
theorem Draws.firstOccurrencesAfter (draws : ctx.Draws G known) {seen entered : List TypeInfo}
    {edges met : List Base} (walk : G.Walk seen edges met entered)
    (old : ∀ c ∈ seen, ctx.Identified c) (targets : ∀ e ∈ edges, ctx.Identified e.target) :
    (∀ c ∈ entered, ctx.Identified c) ∧
    ItaniumRtti.firstOccurrencesAfter seen (met.map (·.target)) = seen ++ entered := by
  induction walk with
  | done => exact ⟨List.forall_mem_nil _, (List.append_nil _).symm⟩
  | old seenBefore _ ih =>
    obtain ⟨-, others⟩ := List.forall_mem_cons.mp targets
    rw [List.map_cons, firstOccurrencesAfter_cons, if_pos]
    · exact ih old others
    · exact List.any_eq_true.mpr ⟨_, seenBefore, beq_self_eq_true _⟩
  | @enter seen enteredBelow enteredAfter e rest bases metBelow metAfter new listed _ _
      ihBelow ihAfter =>
    obtain ⟨here, others⟩ := List.forall_mem_cons.mp targets
    have first : ∀ c ∈ seen ++ [e.target], ctx.Identified c :=
      List.forall_mem_append.mpr ⟨old, List.forall_mem_singleton.mpr here⟩
    obtain ⟨below, belowSame⟩ := ihBelow first (draws.target here listed)
    rw [List.append_assoc, List.singleton_append] at belowSame
    have second : ∀ c ∈ seen ++ e.target :: enteredBelow, ctx.Identified c :=
      List.forall_mem_append.mpr ⟨old, List.forall_mem_cons.mpr ⟨here, below⟩⟩
    obtain ⟨after, afterSame⟩ := ihAfter second others
    refine ⟨List.forall_mem_cons.mpr ⟨here, List.forall_mem_append.mpr ⟨below, after⟩⟩, ?_⟩
    rw [List.map_cons, firstOccurrencesAfter_cons, if_neg, List.map_append,
      firstOccurrencesAfter_append, belowSame, afterSame, List.append_assoc, List.cons_append]
    -- A class of the same address among those seen would be the same class, which is new.
    intro present
    obtain ⟨c, member, same⟩ := List.any_eq_true.mp present
    exact new ((old c member).eq_of_address here (beq_iff_eq.mp same) ▸ member)

/-- **The ancestors of a class are the classes that the walk from it enters.** -/
theorem Draws.ancestors (draws : ctx.Draws G known) {t : TypeInfo} (identified : ctx.Identified t) :
    (∃ bases met entered after, G t = .ok bases ∧ t.ancestors ctx known = .ok entered after ∧
      ctx.Draws G after ∧ G.Walk [t] bases met entered) ∨
    ∃ c fault after, t.ancestors ctx known = .error fault after ∧ G c = .error fault ∧
      Relation.ReflTransGen G.Edge t c := by
  rw [TypeInfo.ancestors]
  rcases draws.edges identified with
    ⟨bases, met, entered, after, listed, found, still, walk⟩ |
    ⟨c, fault, after, stopped, failed, path⟩
  · refine .inl ⟨bases, met, entered, after, listed, ?_, still, walk⟩
    obtain ⟨classes, occur⟩ := draws.firstOccurrencesAfter walk
      (List.forall_mem_singleton.mpr identified) (draws.target identified listed)
    have others : ∀ c ∈ entered, decide (c.address ≠ t.address) = true := by
      intro c member
      refine decide_eq_true fun same => ?_
      obtain rfl := (classes c member).eq_of_address identified same
      exact (List.nodup_cons.mp (walk.nodup (List.nodup_singleton _))).1 member
    -- The class itself occurs first in the walk and is left out of the ancestors, so it makes no
    -- difference whether the count starts with it.
    have start : ([] : List TypeInfo).filter (·.address ≠ t.address) =
        [t].filter (·.address ≠ t.address) := by
      rw [List.filter_singleton, decide_eq_false (not_not.mpr rfl), List.filter_nil, cond_false]
    have kept : (firstOccurrences (met.map (·.target))).filter (·.address ≠ t.address) = entered :=
      calc (firstOccurrences (met.map (·.target))).filter (·.address ≠ t.address)
          = (ItaniumRtti.firstOccurrencesAfter [t] (met.map (·.target))).filter
              (·.address ≠ t.address) := filter_firstOccurrencesAfter start _
        _ = (t :: entered).filter (·.address ≠ t.address) := by rw [occur]; rfl
        _ = entered.filter (·.address ≠ t.address) := by
            rw [List.filter_cons_of_neg (by rw [decide_eq_true_eq]; exact not_not.mpr rfl)]
        _ = entered := List.filter_eq_self.mpr others
    rw [bind_ok found, kept]
    rfl
  · exact .inr ⟨c, fault, after, bind_error stopped, failed, path⟩

/-- A class whose direct bases cannot be read is malformed, in a known byte order and with a limit
    that is a number. -/
theorem malformed_of_graph (readable : ctx.image.order.Known)
    (numeric : ctx.limits.maxBaseCount ≠ .unfit) {c : TypeInfo} {fault : Fault}
    (failed : ctx.graph known c = .error fault) : ∃ what, fault = .malformed what := by
  cases kept : known.bases[c.address]? with
  | some bases =>
    rw [graph_of_known kept] at failed
    cases failed
  | none =>
    rw [graph_of_unknown kept, answer_eq_error_iff] at failed
    obtain ⟨after, read⟩ := failed
    exact TypeInfo.malformed_of_readBases readable numeric read

end Context

namespace Session

/-- **The ancestors of a class are exact, in cycles too.**  If the direct bases of every class that
    can be reached are known, the ancestors are the other classes that can be reached, each once, in
    the order in which the recursive depth-first walk enters them.  Otherwise a class that can be
    reached and is malformed stops the question. -/
theorem ancestors_exact (image : Image) (demangle : Demangler) (limits : Limits)
    (detector : Detector) (listing : Listing) (queries : List Query) (t : TypeInfo) :
    let s := (start image demangle limits detector listing).after queries
    let ctx := s.context
    let G := ctx.graph s.known
    ctx.Identified t →
    (G.WellFormed t → ∃ bases ancestors after,
      G t = .ok bases ∧ t.ancestors ctx s.known = .ok ancestors after ∧
      (ancestors.map (·.address)).Nodup ∧
      (∀ c, c ∈ ancestors ↔ Relation.TransGen G.Edge t c ∧ c ≠ t) ∧
      ∀ entered, (∃ met, G.Walk [t] bases met entered) ↔ entered = ancestors) ∧
    (¬ G.WellFormed t → ∃ c fault after,
      t.ancestors ctx s.known = .error fault after ∧ G c = .error fault ∧
      Relation.ReflTransGen G.Edge t c ∧
      (ctx.image.order.Known → ctx.limits.maxBaseCount ≠ .unfit →
        ∃ what, fault = .malformed what)) := by
  intro s ctx G identified
  have draws : ctx.Draws G s.known :=
    (after_leads (grounded_start image demangle limits detector listing) queries).1.draws
  -- The question ends in one of two ways, and each excludes the hypothesis of the other half.
  rcases draws.ancestors identified with
    ⟨bases, met, entered, after, listed, found, -, walk⟩ | ⟨c, fault, after, stopped, failed, path⟩
  · refine ⟨fun _ => ⟨bases, entered, after, listed, found, ?_, ?_, ?_⟩,
      fun not => absurd (walk.wellFormed listed) not⟩
    · have classes : ∀ c ∈ entered, ctx.Identified c := fun c member =>
        draws.reached identified ((walk.mem_entered_iff listed).mp member).1.to_reflTransGen
      exact Context.nodup_map_address classes
        (List.nodup_cons.mp (walk.nodup (List.nodup_singleton t))).2
    · exact fun c => walk.mem_entered_iff listed
    · intro other
      refine ⟨fun ⟨met', also⟩ => (walk.unique also).2, ?_⟩
      rintro rfl
      exact ⟨met, walk⟩
  · refine ⟨fun wellFormed => ?_, fun _ => ⟨c, fault, after, stopped, failed, path, ?_⟩⟩
    · obtain ⟨bases, known⟩ := wellFormed c path
      cases failed.symm.trans known
    · exact fun readable numeric => Context.malformed_of_graph readable numeric failed

/-- A session about the program with a cycle of classes. -/
def sampleCycle : Session :=
  start .sampleCycle (fun _ => none) {} (.ofTable []) []

/-- From the last class of the cycle, the walk goes below its first base before it comes to the
    second.  The class above the cycle that is malformed itself has no ancestors. -/
theorem ancestors_exact_sampleCycle :
    (∃ bases met, sampleCycle.context.graph sampleCycle.known ⟨0x400048, .general⟩ = .ok bases ∧
      (sampleCycle.context.graph sampleCycle.known).Walk [⟨0x400048, .general⟩] bases met
        [⟨0x400028, .general⟩, ⟨0x400008, .general⟩, ⟨0x400000, .simple⟩]) ∧
    ∃ what after, TypeInfo.ancestors sampleCycle.context ⟨0x400070, .general⟩ sampleCycle.known =
      .error (.malformed what) after := by
  have identified : sampleCycle.context.Identified ⟨0x400048, .general⟩ ∧
      sampleCycle.context.Identified ⟨0x400070, .general⟩ := by
    unfold Context.Identified
    decide +kernel
  have listed : (sampleCycle.context.graph sampleCycle.known).closed [⟨0x400048, .general⟩,
      ⟨0x400028, .general⟩, ⟨0x400008, .general⟩, ⟨0x400000, .simple⟩] = true := by decide +kernel
  have found : (TypeInfo.ancestors sampleCycle.context ⟨0x400048, .general⟩).run'
      sampleCycle.known =
      some [⟨0x400028, .general⟩, ⟨0x400008, .general⟩, ⟨0x400000, .simple⟩] := by decide +kernel
  have refused : (TypeInfo.bases sampleCycle.context ⟨0x400070, .general⟩).run'
      sampleCycle.known = none := by decide +kernel
  constructor
  · obtain ⟨bases, ancestors, after, known, answered, -, -, order⟩ :=
      (ancestors_exact .sampleCycle _ {} (.ofTable []) [] [] _ identified.1).1
        (BaseGraph.wellFormed_of_closed listed (List.mem_cons_self ..))
    obtain ⟨_, again⟩ := run'_eq_some_iff.mp found
    cases answered.symm.trans again
    obtain ⟨met, walk⟩ := (order _).mpr rfl
    exact ⟨bases, met, known, walk⟩
  · obtain ⟨c, fault, after, stopped, -, -, malformed⟩ :=
      (ancestors_exact .sampleCycle _ {} (.ofTable []) [] [] _ identified.2).2 (fun wellFormed => by
        obtain ⟨bases, known⟩ := wellFormed _ .refl
        obtain ⟨_, answered⟩ := answer_eq_ok_iff.mp known
        cases refused.symm.trans (run'_eq_some_iff.mpr ⟨_, answered⟩))
    obtain ⟨what, rfl⟩ := malformed trivial (by decide)
    exact ⟨what, after, stopped⟩

end Session

end ItaniumRtti
