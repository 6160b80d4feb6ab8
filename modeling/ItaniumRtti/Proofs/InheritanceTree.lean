import ItaniumRtti.Console.Hierarchy
import Mathlib.Data.Fintype.EquivFin
import Mathlib.Data.List.Forall2
import Mathlib.Data.List.Nodup
import Mathlib.Data.Set.Finite.List
import Mathlib.Logic.Relation
import Mathlib.Order.WellFounded

namespace ItaniumRtti

/-!
# The inheritance tree shows every class

The tree has a branch for each class without listed base, and below a class a branch for each time
that a listed class names it as a base.  Only a class that is on the way from the root already is
left out.  The depth of the tree is therefore bounded, and without cycles nothing is left out.

* `Derives`, `Acyclic` — the base relation of the listed classes;
* `Chain.LeadsTo` — a way down from a class without listed base, base entry by base entry;
* `ClassForest` — the classes behind the labels of the tree;
* `ClassForest.Grown` — how the forest grows, branch by branch, with no bound on its depth;
* `exists_grown` — it stops growing, and the tree shows it;
* `ClassForest.Grown.hung` — each class hangs below one of its bases or at the top;
* `ClassForest.Grown.enumerates` — without cycles a class occurs once for each way down to it;
* `inheritanceTree_exact` — so the tree shows each class once for each chain that leads to it.
-/

/-! ### Listed classes and their bases -/

/-- Both classes are listed, and `c` names `parent` as a base. -/
def Derives (classes : List ClassReport) (parent c : ClassReport) : Prop :=
  parent ∈ classes ∧ c ∈ classes ∧ ∃ b ∈ c.bases, b.address = parent.address

/-- No listed class derives from itself. -/
def Acyclic (classes : List ClassReport) : Prop :=
  ∀ c, ¬ Relation.TransGen (Derives classes) c c

/-- None of the bases of the class is listed. -/
def ClassReport.Topmost (classes : List ClassReport) (c : ClassReport) : Prop :=
  ∀ b ∈ c.bases, ∀ other ∈ classes, other.address ≠ b.address

/-- The `entry`-th base of the listed class `c` is the class at `address`. -/
def NamesBase (classes : List ClassReport) (address : Int) (c : ClassReport) (entry : Nat) : Prop :=
  c ∈ classes ∧ ∃ b ∈ c.bases[entry]?, b.address = address

/-- A way down from one class to another: the listed classes that are passed, each with the number
    of its base entry for the class before. -/
def Descends (classes : List ClassReport) :
    ClassReport → List (ClassReport × Nat) → ClassReport → Prop
  | above, [], c => above = c
  | above, step :: rest, c =>
    NamesBase classes above.address step.1 step.2 ∧ Descends classes step.1 rest c

/-- A class to start from, and a way down from it. -/
structure Chain where
  /-- Where the chain starts. -/
  root : ClassReport
  /-- The classes below, each with the number of its base entry for the class before. -/
  steps : List (ClassReport × Nat)
  deriving DecidableEq

/-- The chain starts at a listed class without listed base and leads down to `c`. -/
structure Chain.LeadsTo (classes : List ClassReport) (c : ClassReport) (chain : Chain) : Prop where
  /-- The chain starts at a listed class. -/
  listed : chain.root ∈ classes
  /-- The class has no listed base. -/
  topmost : chain.root.Topmost classes
  /-- The steps lead from there to the class. -/
  descends : Descends classes chain.root chain.steps c

instance (classes : List ClassReport) (c : ClassReport) : Decidable (c.Topmost classes) :=
  inferInstanceAs (Decidable (∀ b ∈ c.bases, ∀ other ∈ classes, other.address ≠ b.address))

instance decidableDescends (classes : List ClassReport) :
    (above : ClassReport) → (steps : List (ClassReport × Nat)) → (c : ClassReport) →
      Decidable (Descends classes above steps c)
  | above, [], c => inferInstanceAs (Decidable (above = c))
  | above, step :: rest, c =>
    have := decidableDescends classes step.1 rest c
    inferInstanceAs (Decidable ((step.1 ∈ classes ∧
      ∃ b ∈ step.1.bases[step.2]?, b.address = above.address) ∧ Descends classes step.1 rest c))

instance (classes : List ClassReport) (c : ClassReport) (chain : Chain) :
    Decidable (chain.LeadsTo classes c) :=
  decidable_of_iff (chain.root ∈ classes ∧ chain.root.Topmost classes ∧
      Descends classes chain.root chain.steps c)
    ⟨fun h => ⟨h.1, h.2.1, h.2.2⟩, fun h => ⟨h.listed, h.topmost, h.descends⟩⟩

variable {classes : List ClassReport}

theorem ClassReport.isRoot_iff {c : ClassReport} : c.isRoot classes = true ↔ c.Topmost classes := by
  simp only [isRoot, Topmost, Bool.not_eq_true', List.any_eq_false, beq_iff_eq, Bool.not_eq_true]

/-- Different classes have different addresses. -/
theorem eq_of_address (distinct : (classes.map (·.address)).Nodup) {c d : ClassReport}
    (first : c ∈ classes) (second : d ∈ classes) (same : c.address = d.address) : c = d :=
  List.inj_on_of_nodup_map distinct first second same

theorem mem_childrenOf {address : Int} {c : ClassReport} :
    c ∈ childrenOf classes address ↔ c ∈ classes ∧ ∃ b ∈ c.bases, b.address = address := by
  simp only [childrenOf, List.mem_flatMap, List.mem_map, List.mem_filter, beq_iff_eq]
  constructor
  · rintro ⟨_, listed, b, base, rfl⟩
    exact ⟨listed, b, base⟩
  · rintro ⟨listed, b, base⟩
    exact ⟨c, listed, b, base, rfl⟩

/-! ### Growing forests -/

/-- Trees of classes. -/
inductive ClassForest where
  /-- No tree. -/
  | empty
  /-- A class, the trees below it, and the trees beside it. -/
  | tree (cls : ClassReport) (below rest : ClassForest)

/-- The label of a class at the top, or below its base at the given address. -/
def ClassReport.labelBelow : Option Int → ClassReport → String
  | none, c => c.label
  | some address, c => branchLabel address c

namespace ClassForest

/-- The trees as they are shown. -/
def shown : Option Int → ClassForest → List Tree
  | _, empty => []
  | base, tree c below rest =>
    .node (c.labelBelow base) (below.shown (some c.address)) :: rest.shown base

/-- Each occurrence of a class, with the class that it hangs below unless it stands at the top. -/
def places : Option ClassReport → ClassForest → List (Option ClassReport × ClassReport)
  | _, empty => []
  | above, tree c below rest => (above, c) :: (below.places (some c) ++ rest.places above)

/-- How the trees of the classes in a list grow.  A class on the path from the root is passed over.
    Below any other class grow the trees of the classes that name it as a base, and beside it the
    trees of the classes that follow in the list. -/
inductive Grown (classes : List ClassReport) :
    List Int → List ClassReport → ClassForest → Prop where
  /-- There are no more classes. -/
  | done {path : List Int} : Grown classes path [] .empty
  /-- The class is on the path. -/
  | skip {path : List Int} {c : ClassReport} {rest : List ClassReport} {forest : ClassForest} :
      c.address ∈ path → Grown classes path rest forest → Grown classes path (c :: rest) forest
  /-- The class is shown. -/
  | hang {path : List Int} {c : ClassReport} {rest : List ClassReport}
      {below forest : ClassForest} :
      c.address ∉ path →
      Grown classes (c.address :: path) (childrenOf classes c.address) below →
      Grown classes path rest forest → Grown classes path (c :: rest) (.tree c below forest)

end ClassForest

/-- A path over all listed classes leaves none out. -/
theorem mem_of_full_path {path : List Int} (nodup : path.Nodup)
    (listed : path ⊆ classes.map (·.address)) (full : classes.length ≤ path.length)
    {c : ClassReport} (member : c ∈ classes) : c.address ∈ path := by
  have same : path.Perm (classes.map (·.address)) :=
    (nodup.subperm listed).perm_of_length_le (by rwa [List.length_map])
  exact same.mem_iff.mpr (List.mem_map_of_mem member)

/-- The trees of some classes, if those below each of the classes are known. -/
theorem exists_grown_of_below {fuel : Nat} {path : List Int} (base : Option Int)
    {children : List ClassReport}
    (deeper : ∀ c ∈ children, c.address ∉ path → ∃ below,
      ClassForest.Grown classes (c.address :: path) (childrenOf classes c.address) below ∧
        below.shown (some c.address) = branches classes fuel (c.address :: path) c.address) :
    ∃ forest, ClassForest.Grown classes path children forest ∧
      forest.shown base = (children.filter fun c => !path.contains c.address).map fun c =>
        .node (c.labelBelow base) (branches classes fuel (c.address :: path) c.address) := by
  induction children with
  | nil => exact ⟨.empty, .done, rfl⟩
  | cons c rest ih =>
    obtain ⟨here, others⟩ := List.forall_mem_cons.mp deeper
    obtain ⟨forest, grown, shown⟩ := ih others
    -- A class on the path is left out, both in the forest and in what is shown.
    by_cases onPath : c.address ∈ path
    · refine ⟨forest, .skip onPath grown, ?_⟩
      rw [shown, List.filter_cons_of_neg (by simpa using onPath)]
    · obtain ⟨below, hung, shownBelow⟩ := here onPath
      refine ⟨.tree c below forest, .hang onPath hung grown, ?_⟩
      rw [List.filter_cons_of_pos (by simpa using onPath), List.map_cons, ← shown, ← shownBelow]
      rfl

/-- **The tree stops growing.**  A path holds each listed class at most once, so as many levels as
    there are classes besides those on the path are enough. -/
theorem exists_grown (fuel : Nat) {path : List Int} (nodup : path.Nodup)
    (listed : path ⊆ classes.map (·.address)) (enough : classes.length ≤ fuel + path.length)
    (base : Option Int) {children : List ClassReport} (among : children ⊆ classes) :
    ∃ forest, ClassForest.Grown classes path children forest ∧
      forest.shown base = (children.filter fun c => !path.contains c.address).map fun c =>
        .node (c.labelBelow base) (branches classes fuel (c.address :: path) c.address) := by
  induction fuel generalizing path base children with
  | zero =>
    -- all listed classes are on the path
    refine exists_grown_of_below base fun c member off => absurd ?_ off
    exact mem_of_full_path nodup listed (by omega) (among member)
  | succ fuel ih =>
    refine exists_grown_of_below base fun c member off => ?_
    exact ih (List.nodup_cons.mpr ⟨off, nodup⟩)
      (List.cons_subset.mpr ⟨List.mem_map_of_mem (among member), listed⟩)
      (by rw [List.length_cons]; omega) (some c.address)
      fun child below => (mem_childrenOf.mp below).1

/-- Trees grow in one way only. -/
theorem ClassForest.Grown.unique {path : List Int} {children : List ClassReport}
    {forest other : ClassForest} (grown : Grown classes path children forest)
    (also : Grown classes path children other) : forest = other := by
  -- By induction on the growth; whether a class is on the path decides which rule applies.
  induction grown generalizing other with
  | done =>
    cases also
    rfl
  | skip onPath _ ih =>
    cases also with
    | skip _ rest => exact ih rest
    | hang off _ _ => exact absurd onPath off
  | hang off _ _ below beside =>
    cases also with
    | skip onPath _ => exact absurd onPath off
    | hang _ hung rest => rw [below hung, beside rest]

/-! ### Where classes hang -/

/-- A listed class stands at the top and has no listed base, or hangs below one of its bases. -/
def Hung (classes : List ClassReport) : Option ClassReport → ClassReport → Prop
  | none, c => c ∈ classes ∧ c.Topmost classes
  | some parent, c => Derives classes parent c

theorem Hung.listed {above : Option ClassReport} {c : ClassReport} (hung : Hung classes above c) :
    c ∈ classes := by
  cases above with
  | none => exact hung.1
  | some parent => exact hung.2.1

/-- The classes below a listed class derive from it. -/
theorem derives_of_mem_childrenOf {c child : ClassReport} (listed : c ∈ classes)
    (below : child ∈ childrenOf classes c.address) : Derives classes c child :=
  ⟨listed, mem_childrenOf.mp below⟩

/-- Wherever a class is hung in a forest, it belongs there. -/
theorem ClassForest.Grown.hung {path : List Int} {children : List ClassReport}
    {forest : ClassForest} (grown : ClassForest.Grown classes path children forest)
    {above : Option ClassReport} (hung : ∀ c ∈ children, Hung classes above c) :
    ∀ place ∈ forest.places above, Hung classes place.1 place.2 := by
  induction grown generalizing above with
  | done => exact List.forall_mem_nil _
  | skip _ _ ih => exact ih (List.forall_mem_cons.mp hung).2
  | hang _ _ _ ihBelow ihRest =>
    obtain ⟨here, others⟩ := List.forall_mem_cons.mp hung
    refine List.forall_mem_cons.mpr ⟨here, List.forall_mem_append.mpr ⟨?_, ihRest others⟩⟩
    exact ihBelow fun child below => derives_of_mem_childrenOf here.listed below

/-! ### Base entries -/

/-- The listed classes that name the class at `address` as a base, each with the number of the base
    entry that does so. -/
def entriesBelow (classes : List ClassReport) (address : Int) : List (ClassReport × Nat) :=
  classes.flatMap fun c =>
    (c.bases.zipIdx.filter (·.1.address == address)).map fun entry => (c, entry.2)

/-- A class is shown below another one once for each such entry. -/
theorem childrenOf_eq (classes : List ClassReport) (address : Int) :
    childrenOf classes address = (entriesBelow classes address).map (·.1) := by
  rw [childrenOf, entriesBelow, List.map_flatMap]
  congr 1
  funext c
  have numbered : c.bases.filter (·.address == address) =
      (c.bases.zipIdx.filter (·.1.address == address)).map (·.1) := by
    nth_rewrite 1 [← List.zipIdx_map_fst 0 c.bases]
    rw [List.filter_map]
    rfl
  rw [numbered, List.map_map, List.map_map]
  rfl

theorem mem_entriesBelow {address : Int} {step : ClassReport × Nat} :
    step ∈ entriesBelow classes address ↔ NamesBase classes address step.1 step.2 := by
  simp only [entriesBelow, NamesBase, List.mem_flatMap, List.mem_map, List.mem_filter, beq_iff_eq,
    List.mem_zipIdx_iff_getElem?]
  constructor
  · rintro ⟨c, listed, ⟨b, i⟩, ⟨entry, same⟩, rfl⟩
    exact ⟨listed, b, entry, same⟩
  · rintro ⟨listed, b, entry, same⟩
    exact ⟨step.1, listed, (b, step.2), ⟨entry, same⟩, rfl⟩

/-- No entry is listed twice. -/
theorem nodup_entriesBelow (nodup : classes.Nodup) (address : Int) :
    (entriesBelow classes address).Nodup := by
  refine List.nodup_flatMap.mpr ⟨fun c _ => ?_, ?_⟩
  · -- the entries of one class differ in their numbers
    refine List.Nodup.of_map (·.2) ?_
    rw [List.map_map]
    have numbers : (c.bases.zipIdx.map (·.2)).Nodup := by
      rw [List.zipIdx_map_snd]
      exact List.nodup_range' _
    exact numbers.sublist (List.filter_sublist.map _)
  · -- those of two classes differ in the class
    refine nodup.imp fun {c d} differ step first second => differ ?_
    obtain ⟨_, _, rfl⟩ := List.mem_map.mp first
    obtain ⟨_, _, same⟩ := List.mem_map.mp second
    exact (congrArg Prod.fst same).symm

/-! ### Ways down -/

/-- Lists of what belongs to each of some keys make up a list of pairs. -/
theorem exists_pairs {α β : Type} {R : α → β → Prop} {keys : List α} {lists : List (List β)}
    (each : List.Forall₂ (fun a l => l.Nodup ∧ ∀ b, b ∈ l ↔ R a b) keys lists)
    (nodup : keys.Nodup) :
    ∃ pairs : List (α × β), pairs.Nodup ∧ (∀ p, p ∈ pairs ↔ p.1 ∈ keys ∧ R p.1 p.2) ∧
      pairs.length = lists.flatten.length := by
  induction each with
  | nil =>
    refine ⟨[], List.nodup_nil, fun p => ?_, rfl⟩
    simp only [List.not_mem_nil, false_and]
  | @cons a l keys lists here _ ih =>
    obtain ⟨new, others⟩ := List.nodup_cons.mp nodup
    obtain ⟨pairs, distinct, members, length⟩ := ih others
    -- The pairs of the first key come first; no later pair has this key.
    refine ⟨l.map (a, ·) ++ pairs, List.nodup_append.mpr ⟨?_, distinct, ?_⟩, fun p => ?_, ?_⟩
    · exact here.1.map (Prod.mk_right_injective a)
    · rintro p first _ second rfl
      obtain ⟨b, -, rfl⟩ := List.mem_map.mp first
      exact new ((members _).mp second).1
    · rw [List.mem_append, List.mem_map, members, List.mem_cons, or_and_right]
      refine or_congr_left ⟨?_, ?_⟩
      · rintro ⟨b, member, rfl⟩
        exact ⟨rfl, (here.2 b).mp member⟩
      · rintro ⟨rfl, related⟩
        exact ⟨p.2, (here.2 p.2).mpr related, rfl⟩
    · rw [List.length_append, List.length_map, length, List.flatten_cons, List.length_append]

/-- `descents` lists the ways down from one class to another, each once. -/
def ListsDescents (classes : List ClassReport) (target above : ClassReport)
    (descents : List (List (ClassReport × Nat))) : Prop :=
  descents.Nodup ∧ ∀ steps, steps ∈ descents ↔ Descends classes above steps target

/-- The ways that go on from a class lead through one of the base entries for it. -/
theorem exists_onward (nodup : classes.Nodup) {target c : ClassReport}
    {lists : List (List (List (ClassReport × Nat)))}
    (below : List.Forall₂ (ListsDescents classes target) (childrenOf classes c.address) lists) :
    ∃ onward : List (List (ClassReport × Nat)), onward.Nodup ∧
      (∀ steps, steps ∈ onward ↔ steps ≠ [] ∧ Descends classes c steps target) ∧
      onward.length = lists.flatten.length := by
  -- Children are listed by base entries, so a class that names the base twice counts twice.
  rw [childrenOf_eq, List.forall₂_map_left_iff] at below
  obtain ⟨pairs, distinct, members, length⟩ :=
    exists_pairs below (nodup_entriesBelow nodup c.address)
  refine ⟨pairs.map fun p => p.1 :: p.2, ?_, fun steps => ?_, by rw [List.length_map, length]⟩
  · exact distinct.map fun p q same => Prod.ext (List.cons.inj same).1 (List.cons.inj same).2
  · rw [List.mem_map]
    constructor
    · rintro ⟨⟨step, rest⟩, member, rfl⟩
      obtain ⟨entry, descends⟩ := (members _).mp member
      exact ⟨List.cons_ne_nil _ _, mem_entriesBelow.mp entry, descends⟩
    · rintro ⟨some, descends⟩
      obtain ⟨step, rest, rfl⟩ := List.exists_cons_of_ne_nil some
      obtain ⟨names, descends⟩ := descends
      exact ⟨(step, rest), (members _).mpr ⟨mem_entriesBelow.mpr names, descends⟩, rfl⟩

/-- The ways down from a class are those that go on, and the empty one if it is the target. -/
theorem exists_descents (nodup : classes.Nodup) {target c : ClassReport}
    {lists : List (List (List (ClassReport × Nat)))}
    (below : List.Forall₂ (ListsDescents classes target) (childrenOf classes c.address) lists) :
    ∃ descents, ListsDescents classes target c descents ∧
      descents.length = (if c = target then 1 else 0) + lists.flatten.length := by
  obtain ⟨onward, distinct, members, length⟩ := exists_onward nodup below
  -- The empty way is not one of those that go on, so it is counted once.
  by_cases reached : c = target
  · have new : [] ∉ onward := fun member => ((members []).mp member).1 rfl
    refine ⟨[] :: onward, ⟨List.nodup_cons.mpr ⟨new, distinct⟩, fun steps => ?_⟩, ?_⟩
    · rw [List.mem_cons, members]
      by_cases empty : steps = []
      · simp [empty, Descends, reached]
      · simp [empty]
    · rw [List.length_cons, length, if_pos reached, Nat.add_comm]
  · refine ⟨onward, ⟨distinct, fun steps => ?_⟩, by rw [length, if_neg reached, Nat.zero_add]⟩
    rw [members]
    refine and_iff_right_of_imp fun descends empty => ?_
    rw [empty] at descends
    exact reached descends

/-- **Without cycles the occurrences of a class are the ways down to it.**  Since the classes on the
    path stand above those that are shown, none of them comes again. -/
theorem ClassForest.Grown.enumerates (distinct : (classes.map (·.address)).Nodup)
    (acyclic : Acyclic classes) {path : List Int} {children : List ClassReport}
    {forest : ClassForest} (grown : ClassForest.Grown classes path children forest)
    (listed : children ⊆ classes)
    (above : ∀ c ∈ children, ∀ a ∈ classes, a.address ∈ path →
      Relation.TransGen (Derives classes) a c) (target : ClassReport) :
    ∃ lists, List.Forall₂ (ListsDescents classes target) children lists ∧
      ∀ parent, (forest.places parent).countP (·.2 = target) = lists.flatten.length := by
  induction grown with
  | done => exact ⟨[], .nil, fun _ => rfl⟩
  | @skip path c rest forest onPath _ _ =>
    have here := (List.cons_subset.mp listed).1
    exact absurd (above c (List.mem_cons_self ..) c here onPath) (acyclic c)
  | @hang path c rest below forest off _ _ ihBelow ihRest =>
    obtain ⟨here, others⟩ := List.cons_subset.mp listed
    obtain ⟨aboveHere, aboveOthers⟩ := List.forall_mem_cons.mp above
    -- what stands above the class stands above the classes below it, and so does the class itself
    have aboveBelow : ∀ child ∈ childrenOf classes c.address, ∀ a ∈ classes,
        a.address ∈ c.address :: path → Relation.TransGen (Derives classes) a child := by
      intro child member a among onPath
      have derives := derives_of_mem_childrenOf here member
      rcases List.mem_cons.mp onPath with same | earlier
      · rw [eq_of_address distinct among here same]
        exact .single derives
      · exact (aboveHere a among earlier).tail derives
    obtain ⟨lists, eachBelow, countBelow⟩ :=
      ihBelow (fun child member => (mem_childrenOf.mp member).1) aboveBelow
    obtain ⟨further, eachRest, countRest⟩ := ihRest others aboveOthers
    obtain ⟨descents, listsHere, length⟩ := exists_descents distinct.of_map eachBelow
    refine ⟨descents :: further, .cons listsHere eachRest, fun parent => ?_⟩
    rw [ClassForest.places, List.countP_cons, List.countP_append, countBelow, countRest,
      List.flatten_cons, List.length_append, length]
    simp only [decide_eq_true_eq]
    omega

/-! ### Chains -/

/-- A way down can be extended by one base entry. -/
theorem Descends.append {above c d : ClassReport} {steps : List (ClassReport × Nat)}
    (descends : Descends classes above steps c) {entry : Nat}
    (names : NamesBase classes c.address d entry) :
    Descends classes above (steps ++ [(d, entry)]) d := by
  induction steps generalizing above with
  | nil =>
    cases descends
    exact ⟨names, rfl⟩
  | cons step rest ih => exact ⟨descends.1, ih descends.2⟩

/-- There are finitely many classes, so going up without cycles ends. -/
theorem Acyclic.wellFounded (acyclic : Acyclic classes) :
    WellFounded fun a b : { c // c ∈ classes } =>
      Relation.TransGen (Derives classes) a.val b.val := by
  have : Finite { c // c ∈ classes } := classes.finite_toSet.to_subtype
  have : IsTrans { c // c ∈ classes } fun a b =>
      Relation.TransGen (Derives classes) a.val b.val := ⟨fun _ _ _ => Relation.TransGen.trans⟩
  have : Std.Irrefl fun a b : { c // c ∈ classes } =>
      Relation.TransGen (Derives classes) a.val b.val := ⟨fun c => acyclic c.val⟩
  exact Finite.wellFounded_of_trans_of_irrefl _

/-- Some chain leads to each listed class: it is found by going up until no base is listed. -/
theorem exists_chain (acyclic : Acyclic classes) (c : { c // c ∈ classes }) :
    ∃ chain : Chain, chain.LeadsTo classes c.val := by
  induction c using acyclic.wellFounded.induction with
  | h c ih =>
    by_cases topmost : c.val.Topmost classes
    · exact ⟨⟨c.val, []⟩, c.property, topmost, rfl⟩
    · simp only [ClassReport.Topmost, not_forall, not_not] at topmost
      obtain ⟨b, base, parent, listed, same⟩ := topmost
      obtain ⟨chain, leads⟩ :=
        ih ⟨parent, listed⟩ (.single ⟨listed, c.property, b, base, same.symm⟩)
      obtain ⟨entry, found⟩ := List.getElem?_of_mem base
      exact ⟨⟨chain.root, chain.steps ++ [(c.val, entry)]⟩, leads.listed, leads.topmost,
        leads.descends.append ⟨c.property, b, found, same.symm⟩⟩

/-- The ways down from each class without listed base make up the chains. -/
theorem exists_chains (nodup : classes.Nodup) {target : ClassReport}
    {lists : List (List (List (ClassReport × Nat)))}
    (each : List.Forall₂ (ListsDescents classes target) (classes.filter (·.isRoot classes)) lists) :
    ∃ chains : List Chain, chains.Nodup ∧ (∀ chain, chain ∈ chains ↔ chain.LeadsTo classes target) ∧
      chains.length = lists.flatten.length := by
  obtain ⟨pairs, distinct, members, length⟩ := exists_pairs each (nodup.filter _)
  -- A chain is a root and a way down from it.
  refine ⟨pairs.map fun p => ⟨p.1, p.2⟩, ?_, fun chain => ?_, by rw [List.length_map, length]⟩
  · refine distinct.map fun p q same => ?_
    obtain ⟨root, steps⟩ := Chain.mk.inj same
    exact Prod.ext root steps
  · rw [List.mem_map]
    constructor
    · rintro ⟨p, pair, rfl⟩
      obtain ⟨root, descends⟩ := (members p).mp pair
      obtain ⟨listed, top⟩ := List.mem_filter.mp root
      exact ⟨listed, ClassReport.isRoot_iff.mp top, descends⟩
    · rintro ⟨listed, topmost, descends⟩
      have root := List.mem_filter.mpr ⟨listed, ClassReport.isRoot_iff.mpr topmost⟩
      exact ⟨(chain.root, chain.steps), (members _).mpr ⟨root, descends⟩, rfl⟩

/-- **The inheritance tree shows every class.**  For classes with different addresses it stops
    growing, each class in it hangs below one of its bases or stands at the top, and if the base
    relation of the classes has no cycles, each class occurs exactly as often as chains lead to it
    from a class without listed base, which is at least once. -/
theorem inheritanceTree_exact (classes : List ClassReport)
    (distinct : (classes.map (·.address)).Nodup) :
    ∃ forest, ClassForest.Grown classes [] (classes.filter (·.isRoot classes)) forest ∧
      inheritanceTree classes =
        .node (Console.styled "bold" "classes") (forest.shown none) ∧
      (∀ place ∈ forest.places none, Hung classes place.1 place.2) ∧
      (Acyclic classes → ∀ c ∈ classes, ∃ chains : List Chain, chains.Nodup ∧
        (∀ chain, chain ∈ chains ↔ chain.LeadsTo classes c) ∧
        (forest.places none).countP (·.2 = c) = chains.length ∧
        0 < (forest.places none).countP (·.2 = c)) := by
  have roots : classes.filter (·.isRoot classes) ⊆ classes := List.filter_sublist.subset
  obtain ⟨forest, grown, shown⟩ := exists_grown classes.length List.nodup_nil
    (List.nil_subset _) (Nat.le_add_right _ _) none roots
  refine ⟨forest, grown, ?_, grown.hung fun c root => ?_, fun acyclic c member => ?_⟩
  · -- the path to the roots is empty, so none of them is passed over
    rw [List.filter_eq_self.mpr fun c _ => by rfl] at shown
    rw [shown]
    rfl
  · obtain ⟨listed, top⟩ := List.mem_filter.mp root
    exact ⟨listed, ClassReport.isRoot_iff.mp top⟩
  · obtain ⟨lists, each, count⟩ := grown.enumerates distinct acyclic roots
      (fun _ _ _ _ onPath => absurd onPath List.not_mem_nil) c
    obtain ⟨chains, nodup, leads, length⟩ := exists_chains distinct.of_map each
    obtain ⟨chain, leading⟩ := exists_chain acyclic ⟨c, member⟩
    refine ⟨chains, nodup, leads, by rw [count, length], ?_⟩
    rw [count, ← length]
    exact List.length_pos_of_mem ((leads chain).mpr leading)

/-- If the bases of each class come before it in memory, there are no cycles. -/
theorem acyclic_of_bases_lt (lower : ∀ c ∈ classes, ∀ b ∈ c.bases, b.address < c.address) :
    Acyclic classes := by
  have upward : ∀ c d, Relation.TransGen (Derives classes) c d → c.address < d.address := by
    intro c d chain
    induction chain with
    | single step =>
      obtain ⟨-, listed, b, base, same⟩ := step
      exact same ▸ lower _ listed b base
    | tail _ step ih =>
      obtain ⟨-, listed, b, base, same⟩ := step
      exact lt_trans ih (same ▸ lower _ listed b base)
  intro c cycle
  exact lt_irrefl _ (upward c c cycle)

namespace ClassReport

/-- A class without bases. -/
def sampleTop : ClassReport := { address := 0x10, kind := .simple, name := "A" }

/-- A class that names it as a base. -/
def sampleLeft : ClassReport :=
  { address := 0x20, kind := .single, name := "B", bases := [{ address := 0x10 }] }

/-- A class that does so twice. -/
def sampleRight : ClassReport :=
  { address := 0x30, kind := .general, name := "C",
    bases := [{ address := 0x10 }, { address := 0x10, offset := 8 }] }

/-- A class over both, and over one that is not listed. -/
def sampleBottom : ClassReport :=
  { address := 0x40, kind := .general, name := "D",
    bases := [{ address := 0x20 }, { address := 0x8 }, { address := 0x30, isVirtual := true }] }

/-- All four, in no particular order. -/
def sampleDiamond : List ClassReport := [sampleBottom, sampleTop, sampleLeft, sampleRight]

end ClassReport

/-- The classes as they hang in the tree.  The class at the bottom is shown once for each way down
    to it, of which two lead over the same class. -/
def ClassForest.sampleDiamond : ClassForest :=
  let bottom := tree .sampleBottom .empty .empty
  .tree .sampleTop (.tree .sampleLeft bottom (.tree .sampleRight bottom
    (.tree .sampleRight bottom .empty))) .empty

/-- The tree of the four classes. -/
def Tree.sampleDiamond : Tree :=
  let bottom := Tree.node (Console.styled "ancestry.virtual" "virtual" ++ " " ++ "D") []
  .node (Console.styled "bold" "classes")
    [.node "A" [.node "B" [.node "D" []], .node "C" [bottom], .node "C" [bottom]]]

/-- The trees grow as they are given. -/
theorem ClassForest.grown_sampleDiamond :
    Grown ClassReport.sampleDiamond [] (ClassReport.sampleDiamond.filter
      (·.isRoot ClassReport.sampleDiamond)) sampleDiamond := by
  have bottom : ∀ path : List Int, 0x40 ∉ path →
      Grown ClassReport.sampleDiamond path [.sampleBottom] (.tree .sampleBottom .empty .empty) :=
    fun path off => .hang off .done .done
  exact .hang (by decide) (.hang (by decide) (bottom _ (by decide)) (.hang (by decide)
    (bottom _ (by decide)) (.hang (by decide) (bottom _ (by decide)) .done))) .done

/-- The ways from the class without bases to the class at the bottom. -/
def Chain.sampleDiamond : List Chain :=
  [⟨.sampleTop, [(.sampleLeft, 0), (.sampleBottom, 0)]⟩,
   ⟨.sampleTop, [(.sampleRight, 0), (.sampleBottom, 2)]⟩,
   ⟨.sampleTop, [(.sampleRight, 1), (.sampleBottom, 2)]⟩]

/-- The class at the bottom is shown once for each of them, though it has a base that is not
    listed. -/
theorem inheritanceTree_exact_sampleDiamond :
    (ClassReport.sampleDiamond.map (·.address)).Nodup ∧ Acyclic ClassReport.sampleDiamond ∧
    inheritanceTree ClassReport.sampleDiamond = .sampleDiamond ∧
    (∀ chain, chain ∈ Chain.sampleDiamond ↔
      chain.LeadsTo ClassReport.sampleDiamond .sampleBottom) ∧
    (ClassForest.sampleDiamond.places none).countP (·.2 = ClassReport.sampleBottom) =
      Chain.sampleDiamond.length := by
  have distinct : (ClassReport.sampleDiamond.map (·.address)).Nodup := by decide
  have acyclic : Acyclic ClassReport.sampleDiamond := acyclic_of_bases_lt (by decide)
  have shownOnce : (ClassForest.sampleDiamond.places none).countP
      (·.2 = ClassReport.sampleBottom) = Chain.sampleDiamond.length := by decide +kernel
  obtain ⟨forest, grown, shown, -, each⟩ := inheritanceTree_exact _ distinct
  obtain rfl := grown.unique ClassForest.grown_sampleDiamond
  obtain ⟨chains, -, leads, count, -⟩ := each acyclic .sampleBottom (by decide)
  have leading : ∀ chain ∈ Chain.sampleDiamond,
      chain.LeadsTo ClassReport.sampleDiamond .sampleBottom := by decide
  have apart : Chain.sampleDiamond.Nodup := by decide
  -- there are no more chains than the class is shown times
  have all : Chain.sampleDiamond.Perm chains :=
    (apart.subperm fun chain member => (leads chain).mpr (leading chain member)).perm_of_length_le
      (by rw [← count, shownOnce])
  exact ⟨distinct, acyclic, shown, fun chain => all.mem_iff.trans (leads chain), shownOnce⟩

end ItaniumRtti
