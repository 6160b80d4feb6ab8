import ItaniumRtti.Proofs.Hierarchy.Virtuals
import ItaniumRtti.Proofs.Session.Cancelled
import ItaniumRtti.Proofs.StoreIndex

namespace ItaniumRtti

/-!
# Groups of constructors and destructors

A correlation assigns the candidates that store an address point of a class to the class, and hands
the others on to the base classes that its table of vtables names, one after the other.

* `Assignment.Precedes` — constructors before destructors, each by address;
* `TypeInfo.Attributes` — the classes that the stores of functions are attributed to;
* `Vtable.tellingPoints` — the address points that tell the functions of a class;
* `Context.Collects` — a group: the candidates that store one of some points, in this order;
* `Context.Shares` — groups of several classes, each among the candidates that those before left;
* `Context.Correlates` — what a correlation gives, and how it follows from such groups.
-/

open Recover

/-! ### The order of assignments -/

namespace Assignment

/-- Constructors stand before destructors, and functions of one role in the order of their
    addresses. -/
def Precedes (a b : Assignment) : Prop :=
  a.role = .constructor ∧ b.role = .destructor ∨
    a.role = b.role ∧ a.function.address < b.function.address

/-- The order in which assignments are sorted. -/
theorem le_iff (a b : Assignment) : a.le b = true ↔
    a.role = .constructor ∧ b.role = .destructor ∨
      a.role = b.role ∧ a.function.address ≤ b.function.address := by
  unfold le
  cases a.role <;> cases b.role <;> simp

/-- It can be chained. -/
theorem le_trans (a b c : Assignment) (first : a.le b = true) (second : b.le c = true) :
    a.le c = true := by
  rw [le_iff] at *
  rcases first with ⟨ha, hb⟩ | ⟨hab, low⟩
  · rcases second with ⟨hb', -⟩ | ⟨hbc, -⟩
    · cases hb.symm.trans hb'
    · exact .inl ⟨ha, hbc ▸ hb⟩
  · rcases second with ⟨hb, hc⟩ | ⟨hbc, high⟩
    · exact .inl ⟨hab.trans hb, hc⟩
    · exact .inr ⟨hab.trans hbc, Int.le_trans low high⟩

/-- Any two assignments are comparable by it. -/
theorem le_total (a b : Assignment) : (a.le b || b.le a) = true := by
  rw [Bool.or_eq_true, le_iff, le_iff]
  cases a.role <;> cases b.role <;> simp [Int.le_total]

/-- A sorted list of assignments of different functions. -/
theorem pairwise_precedes {assignments : List Assignment}
    (distinct : (assignments.map (·.function.address)).Nodup) :
    (assignments.mergeSort le).Pairwise Precedes := by
  have sorted := List.pairwise_mergeSort le_trans le_total assignments
  have differ := ((List.mergeSort_perm assignments le).map (·.function.address)).nodup_iff.mpr
    distinct
  rw [List.Nodup, List.pairwise_map] at differ
  refine (sorted.and differ).imp ?_
  intro a b both
  obtain ⟨ordered, other⟩ := both
  rcases (le_iff a b).mp ordered with roles | ⟨same, below⟩
  · exact .inl roles
  · exact .inr ⟨same, by omega⟩

end Assignment

/-! ### The classes of attributions -/

namespace TypeInfo

variable {ctx : Context} {t : TypeInfo}

/-- The classes other than `t` that stores are attributed to are the listed ones. -/
def Attributes (t : TypeInfo) (attributions : List Attribution) (classes : List TypeInfo) : Prop :=
  ∀ place ≠ t.address,
    (∃ s ∈ attributions, s.classAddress = place) ↔ ∃ c ∈ classes, c.address = place

namespace Attributes

variable {first second : List Attribution} {classes more : List TypeInfo}

/-- Attributions and their classes may be joined. -/
theorem append (left : t.Attributes first classes) (right : t.Attributes second more) :
    t.Attributes (first ++ second) (classes ++ more) := by
  intro place other
  simp only [List.mem_append, or_and_right, exists_or]
  rw [left place other, right place other]

/-- Stores that are attributed to the class itself. -/
theorem own (all : ∀ s ∈ first, s.classAddress = t.address) : t.Attributes first [] := by
  intro place other
  constructor
  · rintro ⟨s, member, rfl⟩
    exact absurd (all s member) other
  · rintro ⟨c, member, -⟩
    cases member

/-- Stores that are attributed one by one. -/
theorem pairs {found : List (Attribution × TypeInfo)}
    (all : ∀ pair ∈ found, pair.1.classAddress = pair.2.address) :
    t.Attributes (found.map (·.1)) (found.map (·.2)) := by
  intro place _
  constructor
  · rintro ⟨s, member, rfl⟩
    obtain ⟨pair, here, rfl⟩ := List.mem_map.mp member
    exact ⟨pair.2, List.mem_map_of_mem here, (all pair here).symm⟩
  · rintro ⟨c, member, rfl⟩
    obtain ⟨pair, here, rfl⟩ := List.mem_map.mp member
    exact ⟨pair.1, List.mem_map_of_mem here, all pair here⟩

end Attributes

/-- An entry's store is attributed to the class listed with it. -/
theorem attributeEntries_pairs (v : Vtable) (index : Nat) (entries : List Int)
    (unused : List VptrStore) :
    Yields (fun result => ∀ pair ∈ result.1, pair.1.classAddress = pair.2.address)
      (t.attributeEntries ctx v index entries unused) := by
  induction entries generalizing index unused with
  | nil => exact .pure (List.forall_mem_nil _)
  | cons entry rest ih =>
    rw [attributeEntries]
    cases unused.find? (·.value == entry) with
    | none => exact ih (index + 1) unused
    | some s =>
      dsimp only
      rw [ite_bind]
      refine .andThen fun target => .andThen fun name => (ih _ _).bind fun result pairs => ?_
      exact .pure (List.forall_mem_cons.mpr ⟨rfl, pairs⟩)

/-- All stores of a function are attributed to the classes that are listed, or to the class itself.
    -/
theorem attributeStores_attributes (v : Vtable) (entries points : List Int)
    (stores : List VptrStore) :
    Yields (fun result => t.Attributes result.1 result.2)
      (t.attributeStores ctx v entries points stores) := by
  rw [attributeStores]
  refine (attributeEntries_pairs v 0 entries stores).bind fun result pairs => ?_
  have owned : Yields (fun own => ∀ s ∈ own, s.classAddress = t.address)
      (t.attributeOwn ctx points result.2) :=
    .andThen fun name => .pure (List.forall_mem_map.mpr fun _ _ => rfl)
  refine owned.bind fun own all => .pure ?_
  have together := (Attributes.pairs pairs).append (Attributes.own all)
  rwa [List.append_nil] at together

/-- The classes that are given with assignments are those that their stores are attributed to. -/
theorem assign_attributes (v : Vtable) (entries points : List Int) (d : Detector)
    (candidates : List Function) :
    Yields (fun result => t.Attributes (result.1.flatMap (·.stores)) result.2)
      (t.assign ctx v entries points d candidates) := by
  induction candidates with
  | nil => exact .pure (.own (List.forall_mem_nil _))
  | cons f rest ih =>
    rw [assign]
    refine .andThen fun _ => .andThen fun stores => .ite ih ?_
    refine (attributeStores_attributes v entries points stores).bind fun result attributes => ?_
    refine .andThen fun name => ih.bind fun more others => .pure ?_
    rw [List.flatMap_cons]
    exact attributes.append others

/-- The classes of a list other than `t`, each once. -/
def others (t : TypeInfo) (classes : List TypeInfo) : List TypeInfo :=
  (firstOccurrences classes).filter (·.address ≠ t.address)

theorem nodup_others (t : TypeInfo) (classes : List TypeInfo) :
    ((t.others classes).map (·.address)).Nodup :=
  (List.filter_sublist.map _).nodup (nodup_firstOccurrences classes)

/-- The others are the classes of the list at other addresses. -/
theorem mem_others_iff {classes : List TypeInfo} (all : ∀ c ∈ classes, ctx.Identified c)
    {b : TypeInfo} : b ∈ t.others classes ↔ b ∈ classes ∧ b.address ≠ t.address := by
  rw [others, List.mem_filter, Context.mem_firstOccurrences_iff all, decide_eq_true_iff]

/-- So they are the classes that stores of the functions are attributed to. -/
theorem Attributes.mem_others_iff {assignments : List Assignment} {classes : List TypeInfo}
    (attributes : t.Attributes (assignments.flatMap (·.stores)) classes)
    (all : ∀ c ∈ classes, ctx.Identified c) {b : TypeInfo} (identified : ctx.Identified b) :
    b ∈ t.others classes ↔
      b.address ≠ t.address ∧ ∃ a ∈ assignments, ∃ s ∈ a.stores, s.classAddress = b.address := by
  rw [TypeInfo.mem_others_iff all, and_comm]
  refine and_congr_right fun differs => ?_
  -- A class that recognition finds is told by its address.
  have listed : b ∈ classes ↔ ∃ c ∈ classes, c.address = b.address := by
    constructor
    · exact fun member => ⟨b, member, rfl⟩
    · rintro ⟨c, member, same⟩
      rwa [← (all c member).eq_of_address identified same]
  rw [listed, ← attributes b.address differs]
  constructor
  · rintro ⟨s, member, is⟩
    obtain ⟨a, here, stored⟩ := List.mem_flatMap.mp member
    exact ⟨a, here, s, stored, is⟩
  · rintro ⟨a, here, s, stored, is⟩
    exact ⟨s, List.mem_flatMap.mpr ⟨a, here, stored⟩, is⟩

end TypeInfo

/-! ### Address points -/

namespace Vtable

variable {v : Vtable}

/-- The address points that tell the functions of the class: all of them with a table of vtables,
    and the primary one without. -/
def tellingPoints (v : Vtable) (vtt : Option Vtt) : List Int :=
  if vtt.any (·.isValid) then v.addressPoints else v.primary?.toList.map (·.addressPoint)

/-- A vtable that was found has a first table. -/
theorem exists_primary (valid : v.isValid = true) : ∃ primary, v.primary? = some primary := by
  unfold isValid at valid
  unfold primary?
  cases tables : v.tables with
  | nil => simp [tables] at valid
  | cons table rest => exact ⟨table, rfl⟩

/-- The points that a correlation looks for are those that tell. -/
theorem tellingPoints_eq {primary : SubTable} (first : v.primary? = some primary)
    (vtt : Option Vtt) :
    (if ((vtt.map (·.entries)).getD []).isEmpty then [primary.addressPoint] else v.addressPoints) =
      v.tellingPoints vtt := by
  cases vtt with
  | none => simp [tellingPoints, first]
  | some table =>
    by_cases empty : table.entries = [] <;> simp [tellingPoints, first, Vtt.isValid, empty]

/-- Without a table of vtables only the primary address point tells. -/
theorem mem_tellingPoints_none {point : Int} : point ∈ v.tellingPoints none ↔
    ∃ primary, v.primary? = some primary ∧ point = primary.addressPoint := by
  simp [tellingPoints, eq_comm]

end Vtable

namespace Context

variable {ctx : Context} {d : Detector} {known later : Knowledge} {t c : TypeInfo}
  {points : List Int} {candidates : List Function} {f : Function}

/-- A function is taken if it stores one of the points into its object. -/
theorem storesOneOf_iff :
    storesOneOf d points f = true ↔ ∃ s ∈ d.onObject f, s.value ∈ points := by
  simp [storesOneOf]

/-! ### Groups -/

/-- The group of the class: the candidates that store one of `points`, constructors first. -/
structure Collects (ctx : Context) (d : Detector) (c : TypeInfo) (points : List Int)
    (candidates : List Function) (group : List Assignment) : Prop where
  /-- The functions. -/
  functions : (group.map (·.function)).Perm (candidates.filter (storesOneOf d points))
  /-- They are assigned to the class. -/
  owner : ∀ a ∈ group, a.classAddress = c.address
  /-- Their names tell what they do. -/
  role : ∀ a ∈ group, a.role = .ofFunction ctx.demangle a.function
  /-- Their order. -/
  sorted : group.Pairwise Assignment.Precedes

namespace Collects

variable {group : List Assignment}

/-- The functions of a group are the candidates that store one of the points. -/
theorem mem_iff (collects : ctx.Collects d c points candidates group) :
    (∃ a ∈ group, a.function = f) ↔ f ∈ candidates ∧ ∃ s ∈ d.onObject f, s.value ∈ points := by
  rw [← List.mem_map, collects.functions.mem_iff, List.mem_filter, storesOneOf_iff]

/-- Whether a function is left for other classes. -/
theorem mem_unassigned_iff (collects : ctx.Collects d c points candidates group)
    (distinct : (candidates.map (·.address)).Nodup) : f ∈ unassigned group candidates ↔
      f ∈ candidates ∧ ¬ ∃ s ∈ d.onObject f, s.value ∈ points := by
  unfold unassigned
  rw [List.mem_filter, Bool.not_eq_true', List.any_eq_false]
  refine and_congr_right fun member => ?_
  constructor
  · intro free stores
    obtain ⟨a, here, rfl⟩ := collects.mem_iff.mpr ⟨member, stores⟩
    exact free a here (beq_self_eq_true _)
  · intro other a here same
    -- only one candidate stands at the address
    obtain ⟨inside, stores⟩ := collects.mem_iff.mp ⟨a, here, rfl⟩
    have is := List.inj_on_of_nodup_map distinct inside member (beq_iff_eq.mp same)
    exact other (is ▸ stores)

/-- No function is in a group twice. -/
theorem nodup (collects : ctx.Collects d c points candidates group)
    (distinct : (candidates.map (·.address)).Nodup) :
    (group.map (·.function.address)).Nodup := by
  have filtered := (List.filter_sublist (p := storesOneOf d points) (l := candidates)).map
    (·.address)
  have same := (collects.functions.map (·.address)).nodup_iff.mpr (filtered.nodup distinct)
  rwa [List.map_map] at same

/-- Without a point there is nothing to store. -/
theorem nothing (candidates : List Function) : ctx.Collects d c [] candidates [] where
  functions := by simp [storesOneOf]
  owner := List.forall_mem_nil _
  role := List.forall_mem_nil _
  sorted := .nil

/-- Assignments that were found one after the other, once they are sorted. -/
theorem of_assignments {assignments : List Assignment}
    (functions : assignments.map (·.function) = candidates.filter (storesOneOf d points))
    (owner : ∀ a ∈ assignments, a.classAddress = c.address)
    (role : ∀ a ∈ assignments, a.role = .ofFunction ctx.demangle a.function)
    (distinct : (candidates.map (·.address)).Nodup) :
    ctx.Collects d c points candidates (assignments.mergeSort Assignment.le) where
  functions := by
    rw [← functions]
    exact (List.mergeSort_perm _ _).map _
  owner a member := owner a (List.mem_mergeSort.mp member)
  role a member := role a (List.mem_mergeSort.mp member)
  sorted := by
    apply Assignment.pairwise_precedes
    have addresses := congrArg (List.map (·.address)) functions
    rw [List.map_map] at addresses
    -- Different functions have different addresses, so the order by address is strict.
    show (assignments.map ((·.address) ∘ (·.function))).Nodup
    rw [addresses]
    exact (List.filter_sublist.map _).nodup distinct

end Collects

/-! ### Groups of several classes -/

/-- Each of some classes has its group among the candidates that those before it left.  `Tells` says
    which points tell the functions of a class. -/
inductive Shares (ctx : Context) (d : Detector) (Tells : TypeInfo → List Int → Prop) :
    List TypeInfo → List Function → List (List Assignment) → Prop where
  /-- There are no more classes. -/
  | nil {candidates : List Function} : Shares ctx d Tells [] candidates []
  /-- A class takes its functions. -/
  | cons {c : TypeInfo} {points : List Int} {candidates : List Function} {group : List Assignment}
      {rest : List TypeInfo} {groups : List (List Assignment)} :
      Tells c points → ctx.Collects d c points candidates group →
      Shares ctx d Tells rest (unassigned group candidates) groups →
      Shares ctx d Tells (c :: rest) candidates (group :: groups)

/-- What is left are candidates. -/
theorem unassigned_sublist {group : List Assignment} :
    (unassigned group candidates).Sublist candidates :=
  List.filter_sublist

/-- What is left does not depend on the order of the group. -/
theorem unassigned_perm {group sorted : List Assignment} (same : sorted.Perm group) :
    unassigned sorted candidates = unassigned group candidates := by
  unfold unassigned
  simp only [same.any_eq]

namespace Shares

variable {Tells Tells' : TypeInfo → List Int → Prop} {classes : List TypeInfo}
  {groups : List (List Assignment)}

/-- The points may be described in another way. -/
theorem mono (shares : ctx.Shares d Tells classes candidates groups)
    (more : ∀ c ∈ classes, ∀ points, Tells c points → Tells' c points) :
    ctx.Shares d Tells' classes candidates groups := by
  induction shares with
  | nil => exact .nil
  | cons tells collects _ ih =>
    obtain ⟨first, others⟩ := List.forall_mem_cons.mp more
    exact .cons (first _ tells) collects (ih others)

/-- There is one group for each class, in order. -/
theorem forall₂ (shares : ctx.Shares d Tells classes candidates groups) :
    List.Forall₂ (fun c group => (∀ a ∈ group, a.classAddress = c.address) ∧
      group.Pairwise Assignment.Precedes) classes groups := by
  induction shares with
  | nil => exact .nil
  | cons _ collects _ ih => exact .cons ⟨collects.owner, collects.sorted⟩ ih

/-- What the groups are made of. -/
theorem assigned (shares : ctx.Shares d Tells classes candidates groups) :
    ∀ a ∈ groups.flatten, a.function ∈ candidates ∧
      a.role = .ofFunction ctx.demangle a.function ∧
      ∃ c ∈ classes, a.classAddress = c.address ∧ ∃ points, Tells c points ∧
        ∃ s ∈ d.onObject a.function, s.value ∈ points := by
  induction shares with
  | nil => exact List.forall_mem_nil _
  | cons tells collects _ ih =>
    rw [List.flatten_cons]
    refine List.forall_mem_append.mpr ⟨fun a member => ?_, fun a member => ?_⟩
    · obtain ⟨inside, stores⟩ := collects.mem_iff.mp ⟨a, member, rfl⟩
      exact ⟨inside, collects.role a member, _, List.mem_cons_self .., collects.owner a member, _,
        tells, stores⟩
    · -- What a later class takes was left by the first.
      obtain ⟨inside, role, c, listed, found⟩ := ih a member
      exact ⟨unassigned_sublist.subset inside, role, c, List.mem_cons_of_mem _ listed, found⟩

/-- No function is in two groups, since those before leave only others. -/
theorem nodup (shares : ctx.Shares d Tells classes candidates groups)
    (distinct : (candidates.map (·.address)).Nodup) :
    (groups.flatten.map (·.function.address)).Nodup := by
  induction shares with
  | nil => exact List.nodup_nil
  | cons _ collects others ih =>
    have left := ih ((unassigned_sublist.map _).nodup distinct)
    rw [List.flatten_cons, List.map_append, List.nodup_append]
    refine ⟨collects.nodup distinct, left, ?_⟩
    intro x here y there same
    obtain ⟨a, own, rfl⟩ := List.mem_map.mp here
    obtain ⟨b, other, rfl⟩ := List.mem_map.mp there
    obtain ⟨inside, stores⟩ := collects.mem_iff.mp ⟨a, own, rfl⟩
    -- A function of a later group was left by the first one, so it stores none of the points that
    -- the first took.
    obtain ⟨member, free⟩ :=
      (collects.mem_unassigned_iff distinct).mp (others.assigned b other).1
    exact free (List.inj_on_of_nodup_map distinct inside member same ▸ stores)

/-- No function is lost: one that stores a point of a class is in the group of this class or of one
    before it. -/
theorem complete (shares : ctx.Shares d Tells classes candidates groups)
    (distinct : (candidates.map (·.address)).Nodup) (member : c ∈ classes) (inside : f ∈ candidates)
    (stores : ∀ points, Tells c points → ∃ s ∈ d.onObject f, s.value ∈ points) :
    ∃ a ∈ groups.flatten, a.function = f := by
  induction shares with
  | nil => cases member
  | @cons _ _ candidates group _ _ tells collects _ ih =>
    rw [List.flatten_cons]
    -- a class before may have taken the function, since it stores a point of that class too
    by_cases taken : ∃ a ∈ group, a.function = f
    · obtain ⟨a, here, is⟩ := taken
      exact ⟨a, List.mem_append_left _ here, is⟩
    rcases List.mem_cons.mp member with rfl | later
    · exact absurd (collects.mem_iff.mpr ⟨inside, stores _ tells⟩) taken
    · have free : f ∈ unassigned group candidates :=
        (collects.mem_unassigned_iff distinct).mpr
          ⟨inside, fun stores => taken (collects.mem_iff.mpr ⟨inside, stores⟩)⟩
      obtain ⟨a, there, is⟩ := ih ((unassigned_sublist.map _).nodup distinct) later free
      exact ⟨a, List.mem_append_right _ there, is⟩

end Shares

/-! ### Correlations -/

/-- The points of the vtables that are known: for the class `t` those of `v` that count with the
    table of vtables `vtt`, for any other class the primary one. -/
def Tells (t : TypeInfo) (v : Vtable) (vtt : Option Vtt) (known : Knowledge) (c : TypeInfo)
    (points : List Int) : Prop :=
  c = t ∧ points = v.tellingPoints vtt ∨
    c ≠ t ∧ ∃ w, known.HasVtable c.address w ∧ points = w.tellingPoints none

/-- What a correlation gives for the class `t` with vtable `v`: a group of its own functions, and
    one group for each of the classes `bases`. -/
structure Correlates (ctx : Context) (G : BaseGraph) (t : TypeInfo) (v : Vtable) (vtt : Option Vtt)
    (candidates : List Function) (d : Detector) (known : Knowledge) (own : List Assignment)
    (bases : List TypeInfo) (groups : List (List Assignment)) : Prop where
  /-- No function is assigned twice. -/
  distinct : ((own ++ groups.flatten).map (·.function.address)).Nodup
  /-- Only candidates are assigned, and their names tell what they do. -/
  assigned : ∀ a ∈ own ++ groups.flatten,
    a.function ∈ candidates ∧ a.role = .ofFunction ctx.demangle a.function
  /-- A candidate is assigned to the class if and only if it stores one of the class's points. -/
  own_iff : ∀ f ∈ candidates,
    (∃ a ∈ own ++ groups.flatten, a.function = f ∧ a.classAddress = t.address) ↔
      ∃ s ∈ d.onObject f, s.value ∈ v.tellingPoints vtt
  /-- A function that is assigned to another class stores none of these points, but the primary
      address point of the other class, which is an ancestor. -/
  other : ∀ a ∈ own ++ groups.flatten, a.classAddress ≠ t.address →
    (¬ ∃ s ∈ d.onObject a.function, s.value ∈ v.tellingPoints vtt) ∧
    ∃ b ∈ bases, a.classAddress = b.address ∧ Relation.TransGen G.Edge t b ∧
      ∃ w primary, b.vtable ctx known = .ok w known ∧ w.primary? = some primary ∧
        ∃ s ∈ d.onObject a.function, s.value = primary.addressPoint
  /-- A candidate that stores the primary address point of one of the bases is assigned. -/
  complete : ∀ b ∈ bases, ∀ w primary, b.vtable ctx known = .ok w known →
    w.primary? = some primary → ∀ f ∈ candidates,
    (∃ s ∈ d.onObject f, s.value = primary.addressPoint) →
    ∃ a ∈ own ++ groups.flatten, a.function = f
  /-- There is one group for each class, and each is ordered. -/
  grouped : List.Forall₂ (fun c group => (∀ a ∈ group, a.classAddress = c.address) ∧
    group.Pairwise Assignment.Precedes) (t :: bases) (own :: groups)
  /-- The bases are different classes. -/
  bases_nodup : (bases.map (·.address)).Nodup
  /-- They are the other classes that stores of the class's functions are attributed to. -/
  mem_bases_iff : ∀ b, ctx.Identified b → (b ∈ bases ↔
    b.address ≠ t.address ∧ ∃ a ∈ own, ∃ s ∈ a.stores, s.classAddress = b.address)

/-- The points of the class itself are those of its vtable. -/
theorem Tells.own {v : Vtable} {vtt : Option Vtt} (tells : Tells t v vtt known t points) :
    points = v.tellingPoints vtt := by
  rcases tells with ⟨-, is⟩ | ⟨differs, -⟩
  · exact is
  · exact absurd rfl differs

/-- Those of another class are of the vtable that is known for it. -/
theorem Tells.other {v : Vtable} {vtt : Option Vtt} (tells : Tells t v vtt known c points)
    (apart : c.address ≠ t.address) :
    ∃ w, known.HasVtable c.address w ∧ points = w.tellingPoints none := by
  rcases tells with ⟨rfl, -⟩ | ⟨-, found⟩
  · exact absurd rfl apart
  · exact found

section

variable {v : Vtable} {vtt : Option Vtt} {own : List Assignment} {bases : List TypeInfo}
  {groups : List (List Assignment)}
  (shares : ctx.Shares d (Tells t v vtt known) (t :: bases) candidates (own :: groups))
  (apart : ∀ b ∈ bases, b.address ≠ t.address)
include shares apart

/-- **A candidate belongs to the class if and only if it stores one of its points.** The class takes
    its functions first, so no other class can have taken them before. -/
theorem Shares.own_iff (inside : f ∈ candidates) :
    (∃ a ∈ own ++ groups.flatten, a.function = f ∧ a.classAddress = t.address) ↔
      ∃ s ∈ d.onObject f, s.value ∈ v.tellingPoints vtt := by
  constructor
  · rintro ⟨a, member, rfl, same⟩
    obtain ⟨-, -, c, listed, address, points, tells, stores⟩ := shares.assigned a member
    rcases List.mem_cons.mp listed with rfl | base
    · rwa [tells.own] at stores
    · exact absurd (address.symm.trans same) (apart c base)
  · intro stores
    cases shares with
    | cons tells collects _ =>
      rw [← tells.own] at stores
      obtain ⟨a, member, is⟩ := collects.mem_iff.mpr ⟨inside, stores⟩
      exact ⟨a, List.mem_append_left _ member, is, collects.owner a member⟩

/-- What is stored by a function that is assigned to another class. -/
theorem Shares.of_other {a : Assignment} (member : a ∈ own ++ groups.flatten)
    (differs : a.classAddress ≠ t.address) :
    ∃ b ∈ bases, a.classAddress = b.address ∧ ∃ w primary, b.vtable ctx known = .ok w known ∧
      w.primary? = some primary ∧ ∃ s ∈ d.onObject a.function, s.value = primary.addressPoint := by
  obtain ⟨-, -, b, listed, address, points, tells, s, stored, point⟩ := shares.assigned a member
  rcases List.mem_cons.mp listed with rfl | base
  · exact absurd address differs
  obtain ⟨w, has, rfl⟩ := tells.other (apart b base)
  obtain ⟨primary, first, is⟩ := Vtable.mem_tellingPoints_none.mp point
  exact ⟨b, base, address, w, primary, TypeInfo.vtable_of_hasVtable has, first, s, stored, is⟩

/-- No function of a base is lost. -/
theorem Shares.of_primary (distinct : (candidates.map (·.address)).Nodup) {b : TypeInfo}
    (base : b ∈ bases) {w : Vtable} {primary : SubTable}
    (answered : b.vtable ctx known = .ok w known) (first : w.primary? = some primary)
    (inside : f ∈ candidates) (stores : ∃ s ∈ d.onObject f, s.value = primary.addressPoint) :
    ∃ a ∈ own ++ groups.flatten, a.function = f := by
  refine shares.complete distinct (List.mem_cons_of_mem t base) inside fun points tells => ?_
  obtain ⟨w', has, rfl⟩ := tells.other (apart b base)
  cases answered.symm.trans (TypeInfo.vtable_of_hasVtable has)
  obtain ⟨s, stored, is⟩ := stores
  exact ⟨s, stored, Vtable.mem_tellingPoints_none.mpr ⟨primary, first, is⟩⟩

end

/-- Groups that are found one after the other, first that of the class and then those of classes
    below it, make a correlation. -/
theorem Correlates.of_shares {G : BaseGraph} {v : Vtable} {vtt : Option Vtt}
    {own : List Assignment} {bases : List TypeInfo} {groups : List (List Assignment)}
    (distinct : (candidates.map (·.address)).Nodup)
    (shares : ctx.Shares d (Tells t v vtt known) (t :: bases) candidates (own :: groups))
    (apart : ∀ b ∈ bases, b.address ≠ t.address)
    (below : ∀ b ∈ bases, Relation.ReflTransGen G.Edge t b)
    (bases_nodup : (bases.map (·.address)).Nodup)
    (mem_bases_iff : ∀ b, ctx.Identified b → (b ∈ bases ↔
      b.address ≠ t.address ∧ ∃ a ∈ own, ∃ s ∈ a.stores, s.classAddress = b.address)) :
    ctx.Correlates G t v vtt candidates d known own bases groups where
  distinct := shares.nodup distinct
  assigned a member := by
    obtain ⟨inside, role, -⟩ := shares.assigned a member
    exact ⟨inside, role⟩
  own_iff f inside := shares.own_iff apart inside
  other a member differs := by
    obtain ⟨b, base, address, stores⟩ := shares.of_other apart member differs
    refine ⟨?_, b, base, address, ?_, stores⟩
    · -- it would be assigned to the class as well
      intro stores
      obtain ⟨e, here, same, owner⟩ :=
        (shares.own_iff apart (shares.assigned a member).1).mpr stores
      have is := List.inj_on_of_nodup_map (shares.nodup distinct) here member
        (congrArg (·.address) same)
      exact differs (is ▸ owner)
    · rcases Relation.reflTransGen_iff_eq_or_transGen.mp (below b base) with rfl | path
      · exact absurd rfl (apart b base)
      · exact path
  complete b base w primary answered first f inside :=
    shares.of_primary apart distinct base answered first inside
  grouped := shares.forall₂
  bases_nodup := bases_nodup
  mem_bases_iff := mem_bases_iff

end Context

end ItaniumRtti
