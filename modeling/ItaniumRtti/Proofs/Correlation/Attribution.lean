import ItaniumRtti.Proofs.Correlation.Run

namespace ItaniumRtti

/-!
# Attribution of stores

The stores of a function are matched with the entries of a table of vtables: each entry takes the
first store of its value that no entry before it took.  Of what is left, the stores of an address
point belong to the class itself.

* `VptrStore.stored`, `Attribution.stored` — where a store is and what it stores;
* `Matching` — how entries and stores are matched, and `Matching.take` — what one entry adds;
* `TypeInfo.attributeEntries_matching` — the entries of a table of vtables are matched so;
* `Vtable.Accounts` — an attribution that neither loses nor duplicates a store;
* `Context.Prevents` — what may stop an attribution;
* `Session.attribution_exact` — every attribution of a session ends in one of these ways.
-/

open Recover

/-- Where the store is and what it stores. -/
def VptrStore.stored (s : VptrStore) : Int × Int :=
  (s.site, s.value)

/-- Where the store is that is attributed, and what it stores. -/
def Attribution.stored (a : Attribution) : Int × Int :=
  (a.site, a.value)

/-! ### Matching -/

/-- The stores with a given site are one store, if no two stores share a site. -/
theorem perm_cons_filter_site {stores : List VptrStore} (distinct : (stores.map (·.site)).Nodup)
    {s : VptrStore} (member : s ∈ stores) :
    (s :: stores.filter (·.site != s.site)).Perm stores := by
  induction stores with
  | nil => cases member
  | cons first rest ih =>
    rw [List.map_cons, List.nodup_cons] at distinct
    obtain ⟨new, others⟩ := distinct
    by_cases same : first.site = s.site
    · -- it is the first one, and no other is dropped
      have is : s = first := by
        rcases List.mem_cons.mp member with here | there
        · exact here
        · exact absurd (same ▸ List.mem_map_of_mem there) new
      subst is
      have kept : rest.filter (·.site != s.site) = rest := by
        rw [List.filter_eq_self]
        intro other there
        rw [bne_iff_ne]
        intro shared
        exact new (shared ▸ List.mem_map_of_mem there)
      rw [List.filter_cons_of_neg (by simp), kept]
    · have there : s ∈ rest := by
        rcases List.mem_cons.mp member with rfl | there
        · exact absurd rfl same
        · exact there
      rw [List.filter_cons_of_pos (by simpa using same)]
      exact (List.Perm.swap first s _).trans ((ih others there).cons first)

/-- How the entries of a table of vtables, counted from `index`, are matched with stores: `matched`
    are the stores that entries took, and `left` the others. -/
structure Matching (index : Nat) (entries : List Int) (stores : List VptrStore)
    (matched : List Attribution) (left : List VptrStore) : Prop where
  /-- Every store is matched or left, and none is both. -/
  split : (matched.map (·.stored) ++ left.map (·.stored)).Perm (stores.map (·.stored))
  /-- Matched stores tell their entries, in order. -/
  indices : ∃ indices : List Nat, matched.map (·.vttIndex) = indices.map some ∧
    indices.Pairwise (· < ·) ∧ ∀ k ∈ indices, index ≤ k
  /-- They have the values of their entries. -/
  values : ∀ a ∈ matched, ∀ k, a.vttIndex = some (index + k) → entries[k]? = some a.value
  /-- As many stores of a value are matched as there are stores and entries of it. -/
  count : ∀ value, matched.countP (·.value == value) =
    min (stores.countP (·.value == value)) (entries.count value)

namespace Matching

variable {index : Nat} {entry : Int} {rest : List Int} {stores left : List VptrStore}
  {matched : List Attribution}

/-- Without entries every store is left. -/
theorem nil (index : Nat) (stores : List VptrStore) : Matching index [] stores [] stores where
  split := .refl _
  indices := ⟨[], rfl, .nil, List.forall_mem_nil _⟩
  values := List.forall_mem_nil _
  count value := by simp

/-- The entry of a matched store. -/
theorem exists_index (matching : Matching index rest stores matched left) {a : Attribution}
    (member : a ∈ matched) : ∃ k, a.vttIndex = some (index + k) := by
  obtain ⟨indices, same, -, above⟩ := matching.indices
  have listed : a.vttIndex ∈ indices.map some := same ▸ List.mem_map_of_mem member
  obtain ⟨k, inside, is⟩ := List.mem_map.mp listed
  have low := above k inside
  exact ⟨k - index, by rw [← is]; congr 1; omega⟩

/-- An entry that no store has the value of. -/
theorem skip (none : ∀ s ∈ stores, s.value ≠ entry)
    (others : Matching (index + 1) rest stores matched left) :
    Matching index (entry :: rest) stores matched left where
  split := others.split
  indices := by
    obtain ⟨indices, same, increasing, above⟩ := others.indices
    exact ⟨indices, same, increasing, fun k member => by have := above k member; omega⟩
  values a member k marked := by
    obtain ⟨j, is⟩ := others.exists_index member
    have next : k = j + 1 := by
      rw [is] at marked
      have := Option.some.inj marked
      omega
    subst next
    rw [List.getElem?_cons_succ]
    exact others.values a member j (by rw [is])
  count value := by
    rw [others.count value, List.count_cons]
    by_cases same : entry = value
    · -- there is no store to match
      subst same
      have zero : stores.countP (·.value == entry) = 0 := by
        rw [List.countP_eq_zero]
        intro s member
        simpa using none s member
      omega
    · simp [same]

/-- An entry takes a store of its value. -/
theorem take (distinct : (stores.map (·.site)).Nodup) {s : VptrStore} (member : s ∈ stores)
    (equal : s.value = entry) {a : Attribution} (about : a.stored = s.stored)
    (marked : a.vttIndex = some index)
    (others : Matching (index + 1) rest (stores.filter (·.site != s.site)) matched left) :
    Matching index (entry :: rest) stores (a :: matched) left where
  split := by
    rw [List.map_cons, List.cons_append, about]
    have all := (perm_cons_filter_site distinct member).map (·.stored)
    exact (others.split.cons _).trans all
  indices := by
    obtain ⟨indices, same, increasing, above⟩ := others.indices
    refine ⟨index :: indices, ?_, ?_, ?_⟩
    · rw [List.map_cons, List.map_cons, marked, same]
    · exact .cons (fun k later => by have := above k later; omega) increasing
    · refine List.forall_mem_cons.mpr ⟨Nat.le_refl _, ?_⟩
      intro k later
      have := above k later
      omega
  -- The index of the new match is the first, and all others are later, so no value is confused with
  -- another's.
  values := by
    have value : a.value = entry := (congrArg Prod.snd about).trans equal
    refine List.forall_mem_cons.mpr ⟨?_, ?_⟩
    · intro k is
      have first : k = 0 := by
        rw [marked] at is
        have := Option.some.inj is
        omega
      rw [first, List.getElem?_cons_zero, value]
    · intro b later k is
      obtain ⟨j, also⟩ := others.exists_index later
      have next : k = j + 1 := by
        rw [also] at is
        have := Option.some.inj is
        omega
      subst next
      rw [List.getElem?_cons_succ]
      exact others.values b later j (by rw [also])
  count value := by
    have taken : a.value = entry := (congrArg Prod.snd about).trans equal
    have all := (perm_cons_filter_site distinct member).countP_eq (·.value == value)
    rw [← all, List.countP_cons, List.countP_cons, List.count_cons, others.count value, taken,
      equal]
    by_cases same : entry = value
    · simp only [same, beq_self_eq_true, if_true]
      omega
    · simp [same]

end Matching

namespace TypeInfo

variable {ctx : Context} {t : TypeInfo}

/-- **The entries of a table of vtables are matched one after the other,** whatever classes the
    stores belong to. -/
theorem attributeEntries_matching (v : Vtable) (index : Nat) (entries : List Int)
    {unused : List VptrStore} (distinct : (unused.map (·.site)).Nodup) :
    Yields (fun result => Matching index entries unused (result.1.map (·.1)) result.2)
      (t.attributeEntries ctx v index entries unused) := by
  induction entries generalizing index unused with
  | nil => exact .pure (.nil index unused)
  | cons entry rest ih =>
    rw [attributeEntries]
    cases found : unused.find? (·.value == entry) with
    | none =>
      have none : ∀ s ∈ unused, s.value ≠ entry := by
        intro s member
        simpa using List.find?_eq_none.mp found s member
      intro known result after answered
      exact .skip none (ih (index + 1) distinct answered)
    | some s =>
      have member := List.mem_of_find?_eq_some found
      have equal : s.value = entry := by simpa using List.find?_some found
      -- The store that is taken is not offered to later entries.
      have fewer := (List.filter_sublist (p := (·.site != s.site)) (l := unused)).map (·.site)
      dsimp only
      rw [ite_bind]
      refine .andThen fun target => .andThen fun name => ?_
      refine (ih (index + 1) (fewer.nodup distinct)).bind fun result others => .pure ?_
      exact .take distinct member equal rfl rfl others

/-- What is attributed to the class itself. -/
theorem attributeOwn_yields (points : List Int) (left : List VptrStore) :
    Yields (fun own => own.map (·.stored) =
        (left.filter fun s => points.contains s.value).map (·.stored) ∧
        ∀ a ∈ own, a.vttIndex = none)
      (t.attributeOwn ctx points left) := by
  rw [attributeOwn]
  refine .andThen fun name => .pure ⟨?_, ?_⟩
  · rw [List.map_map]
    rfl
  · exact List.forall_mem_map.mpr fun _ _ => rfl

end TypeInfo

/-! ### Accounts -/

/-- An attribution of stores that neither loses nor duplicates one. -/
structure Vtable.Accounts (v : Vtable) (entries : List Int) (stores : List VptrStore)
    (result : List Attribution) : Prop where
  /-- No two attributions share a site. -/
  sites : (result.map (·.site)).Nodup
  /-- Each of them is one of the stores. -/
  given : ∀ a ∈ result, ∃ s ∈ stores, s.site = a.site ∧ s.value = a.value
  /-- Those that match an entry come first, in the order of the entries. -/
  ordered : ∃ matched own, ∃ indices : List Nat, result = matched ++ own ∧
    matched.map (·.vttIndex) = indices.map some ∧ indices.Pairwise (· < ·) ∧
    ∀ a ∈ own, a.vttIndex = none
  /-- They have the values of their entries. -/
  values : ∀ a ∈ result, ∀ k, a.vttIndex = some k → entries[k]? = some a.value
  /-- As many stores of a value match an entry as there are stores and entries of it. -/
  count : ∀ value, result.countP (fun a => a.vttIndex.isSome && a.value == value) =
    min (stores.countP (·.value == value)) (entries.count value)
  /-- Every store of an address point is attributed, and only once. -/
  complete : ∀ s ∈ stores, s.value ∈ v.addressPoints →
    ∃! a, a ∈ result ∧ a.site = s.site ∧ a.value = s.value

namespace Matching

variable {entries points : List Int} {stores left : List VptrStore} {matched own : List Attribution}
  (matching : Matching 0 entries stores matched left)
include matching

/-- The stores that are attributed, and those that are not. -/
theorem split_own (rest : own.map (·.stored) =
    (left.filter fun s => points.contains s.value).map (·.stored)) :
    ((matched ++ own).map (·.stored) ++
      (left.filter fun s => !points.contains s.value).map (·.stored)).Perm
      (stores.map (·.stored)) := by
  have parts := (List.filter_append_perm (fun s => points.contains s.value) left).map (·.stored)
  rw [List.map_append, ← rest] at parts
  rw [List.map_append, List.append_assoc]
  exact (parts.append_left _).trans matching.split

/-- Only matched stores tell an entry. -/
theorem countP_isSome (unmatched : ∀ a ∈ own, a.vttIndex = none) (value : Int) :
    (matched ++ own).countP (fun a => a.vttIndex.isSome && a.value == value) =
      matched.countP (·.value == value) := by
  have none : own.countP (fun a => a.vttIndex.isSome && a.value == value) = 0 := by
    rw [List.countP_eq_zero]
    intro a member
    simp [unmatched a member]
  rw [List.countP_append, none, Nat.add_zero]
  refine List.countP_congr fun a member => ?_
  obtain ⟨k, is⟩ := matching.exists_index member
  simp [is]

/-- What was matched and what was left make an account. -/
theorem accounts {v : Vtable} (distinct : (stores.map (·.site)).Nodup)
    (rest : own.map (·.stored) =
      (left.filter fun s => v.addressPoints.contains s.value).map (·.stored))
    (unmatched : ∀ a ∈ own, a.vttIndex = none) :
    v.Accounts entries stores (matched ++ own) := by
  have all := matching.split_own rest
  have sites : ((matched ++ own).map (·.site)).Nodup := by
    have apart := ((all.map Prod.fst).nodup_iff).mpr (by rwa [List.map_map])
    rw [List.map_append, List.map_map] at apart
    exact (List.nodup_append.mp apart).1
  refine ⟨sites, ?_, ?_, ?_, ?_, ?_⟩
  · intro a member
    have listed := all.mem_iff.mp (List.mem_append_left _ (List.mem_map_of_mem member))
    obtain ⟨s, inside, is⟩ := List.mem_map.mp listed
    exact ⟨s, inside, congrArg Prod.fst is, congrArg Prod.snd is⟩
  · obtain ⟨indices, same, increasing, -⟩ := matching.indices
    exact ⟨matched, own, indices, rfl, same, increasing, unmatched⟩
  · refine List.forall_mem_append.mpr ⟨fun a member k is => ?_, fun a member k is => ?_⟩
    · exact matching.values a member k (by rw [is, Nat.zero_add])
    · rw [unmatched a member] at is
      cases is
  · intro value
    rw [matching.countP_isSome unmatched, matching.count]
  · intro s member point
    have kept : s.stored ∈ (matched ++ own).map (·.stored) := by
      rcases List.mem_append.mp (all.mem_iff.mpr (List.mem_map_of_mem member)) with here | there
      · exact here
      · -- what is not attributed stores no address point
        obtain ⟨other, inside, same⟩ := List.mem_map.mp there
        have apart := (List.mem_filter.mp inside).2
        have value : other.value = s.value := congrArg Prod.snd same
        rw [value] at apart
        simp [point] at apart
    obtain ⟨a, inside, same⟩ := List.mem_map.mp kept
    refine ⟨a, ⟨inside, congrArg Prod.fst same, congrArg Prod.snd same⟩, ?_⟩
    rintro b ⟨also, site, -⟩
    exact List.inj_on_of_nodup_map sites also inside (site.trans (congrArg Prod.fst same).symm)

end Matching

/-- **Every answer of an attribution is such an account.** -/
theorem TypeInfo.attributeStores_accounts {ctx : Context} {t : TypeInfo} (v : Vtable)
    (entries : List Int) {stores : List VptrStore} (distinct : (stores.map (·.site)).Nodup) :
    Yields (fun result => v.Accounts entries stores result.1)
      (t.attributeStores ctx v entries v.addressPoints stores) := by
  rw [attributeStores]
  refine (attributeEntries_matching v 0 entries distinct).bind fun result matching => ?_
  refine (attributeOwn_yields v.addressPoints result.2).bind ?_
  rintro own ⟨rest, unmatched⟩
  exact .pure (matching.accounts distinct rest unmatched)

/-! ### Faults -/

namespace Context

variable {ctx : Context} {G : BaseGraph} {t : TypeInfo} {known : Knowledge}

/-- What may stop an attribution: a class of the hierarchy is malformed, or the question for the
    vtable of one of them is stopped. -/
inductive Prevents (ctx : Context) (G : BaseGraph) (t : TypeInfo) : Fault → Prop where
  | malformed {c : TypeInfo} {fault : Fault} : Relation.ReflTransGen G.Edge t c →
      G c = .error fault → Prevents ctx G t fault
  | obstructed {c : TypeInfo} {fault : Fault} : Relation.ReflTransGen G.Edge t c →
      ctx.Obstructs c fault → Prevents ctx G t fault

/-- These faults cover all that reading words can meet. -/
theorem tolerates_prevents : ctx.Tolerates (ctx.Prevents G t) where
  cancelled stopped := .obstructed .refl (.cancelled stopped)
  byteOrder unknown := .obstructed .refl (.byteOrder unknown)
  unfitLimit unfit := .obstructed .refl (.unfitLimit unfit)

/-- So they cover questions for names. -/
theorem naming_prevents :
    Naming ctx ctx.image.relocations (.within (ctx.Draws G) (ctx.Prevents G t)) ctx.Identified :=
  BaseGraph.namingWithin (ctx.upholds_draws G).toUpholds tolerates_prevents

variable (identified : ctx.Identified t)
include identified

/-- Ancestors are searched through, unless a malformed class stops the walk. -/
theorem firstVtableWith_prevents (value : Int) :
    Alike (.within (ctx.Draws G) (ctx.Prevents G t)) (fun found => ∀ c ∈ found, ctx.Identified c)
      (t.ancestors ctx >>= Recover.firstVtableWith ctx value)
      (t.ancestors ctx >>= Recover.firstVtableWith ctx value) := by
  -- In a well-formed hierarchy every ancestor has a vtable to be asked for; in any other one the
  -- walk to the ancestors is what stops.
  by_cases wellFormed : G.WellFormed t
  · have walks : Alike (.within (ctx.Draws G) (ctx.Prevents G t)) _ (t.ancestors ctx)
        (t.ancestors ctx) :=
      (wellFormed.locatingWithin (ctx.upholds_draws G).toUpholds (fun draws => draws)
        tolerates_prevents).ancestors ⟨identified, .refl⟩
    refine walks.bind fun ancestors reached => ?_
    have vtables : ∀ c ∈ ancestors, Alike (.within (ctx.Draws G) (ctx.Prevents G t)) Any
        (c.vtable ctx) (c.vtable ctx) := by
      intro c member
      obtain ⟨here, path⟩ := reached c member
      exact (wellFormed.vtableWithin (ctx.upholds_draws G).toUpholdsTables (fun draws => draws)
        tolerates_prevents here path ((ctx.searchable_obstructs c).imp_left (.obstructed path))).any
    refine (firstVtableWith_alike value vtables).mono fun found inside c is => ?_
    exact (reached c (inside c is)).1
  · rintro k _ ⟨rfl, draws⟩
    rcases draws.ancestors identified with
      ⟨bases, _, _, _, listed, -, -, walk⟩ | ⟨c, fault, after, stopped, failed, path⟩
    · exact absurd (walk.wellFormed listed) wellFormed
    · have keeps : Keeps (ctx.Draws G) _ (t.ancestors ctx) :=
        (ctx.upholds_draws G).locating.ancestors identified
      rw [bind_error stopped]
      exact .error (.malformed path failed) ⟨rfl, keeps.of_error draws stopped⟩

/-- A subobject has an owner, unless the search through the ancestors is stopped. -/
theorem subobjectOwner_prevents (v : Vtable) (value : Int) :
    Alike (.within (ctx.Draws G) (ctx.Prevents G t)) ctx.Identified
      (t.subobjectOwner ctx v value) (t.subobjectOwner ctx v value) := by
  -- a class that was found, or else the class itself
  have orSelf : ∀ found : Option TypeInfo, (∀ c ∈ found, ctx.Identified c) →
      ctx.Identified (found.getD t) := by
    intro found all
    cases found with
    | none => exact identified
    | some c => exact all c rfl
  rw [TypeInfo.subobjectOwner]
  cases v.tableContaining? value with
  | none =>
    dsimp only
    rw [← bind_assoc]
    exact (firstVtableWith_prevents identified value).map orSelf
  | some index =>
    dsimp only
    cases (if index = 0 then none else v.tables[index]?.bind (·.base)) with
    | none => exact .pure identified
    | some base =>
      have classAt : Alike (.within (ctx.Draws G) (ctx.Prevents G t)) _ (Recover.classAt? ctx base)
        (Recover.classAt? ctx base) := naming_prevents.classAt? base
      refine classAt.map fun found is => orSelf found fun c member => ?_
      rw [Option.mem_def.mp member] at is
      exact identified_of_identify is

/-- **Nothing else stops an attribution.** -/
theorem attributeStores_prevents (v : Vtable) (entries points : List Int)
    (stores : List VptrStore) :
    Alike (.within (ctx.Draws G) (ctx.Prevents G t)) Any
      (t.attributeStores ctx v entries points stores)
      (t.attributeStores ctx v entries points stores) := by
  have name : ∀ c, ctx.Identified c → Alike (.within (ctx.Draws G) (ctx.Prevents G t)) Any
      (c.name ctx) (c.name ctx) := fun _ is => naming_prevents.name is
  exact (TypeInfo.attributeStores_alike identified (subobjectOwner_prevents identified v) name
    entries points stores).any

end Context

/-- Stores of a function: one of the base's address point, three of the class's own, one of
    something else. -/
def VptrStore.sampleParts : List VptrStore :=
  [{ site := 1, value := 0x400040 }, { site := 2, value := 0x400028 },
    { site := 3, value := 0x400028 }, { site := 4, value := 0x400028 }, { site := 5, value := 7 }]

namespace Session

/-- **Attribution neither loses nor duplicates a store.**  For every class of a program, every
    vtable, all entries of a table of vtables, repeated or not, and all stores with different sites,
    the stores are attributed as `Vtable.Accounts` says.  Only a malformed class of the hierarchy,
    or a question for the vtable of one of its classes that is stopped, prevents that. -/
theorem attribution_exact (image : Image) (demangle : Demangler) (limits : Limits)
    (detector : Detector) (listing : Listing) (queries : List Query) (t : TypeInfo) (v : Vtable)
    (entries : List Int) (stores : List VptrStore) :
    let s := (start image demangle limits detector listing).after queries
    let ctx := s.context
    ctx.Identified t → (stores.map (·.site)).Nodup →
    (∃ result classes after,
      t.attributeStores ctx v entries v.addressPoints stores s.known = .ok (result, classes) after ∧
      v.Accounts entries stores result) ∨
    ∃ fault after,
      t.attributeStores ctx v entries v.addressPoints stores s.known = .error fault after ∧
      ctx.Prevents (ctx.graph s.known) t fault := by
  intro s ctx identified distinct
  have draws : ctx.Draws (ctx.graph s.known) s.known :=
    (after_leads (grounded_start image demangle limits detector listing) queries).1.draws
  -- How the question can end and what an answer is like are two facts about one run.
  have ends := (Context.attributeStores_prevents identified v entries v.addressPoints
    stores).endsWithin draws
  have accounts := @TypeInfo.attributeStores_accounts ctx t v entries stores distinct
  generalize asked : t.attributeStores ctx v entries v.addressPoints stores s.known = result
    at ends ⊢
  cases ends with
  | ok answered => exact .inl ⟨_, _, _, rfl, accounts asked⟩
  | error prevents => exact .inr ⟨_, _, rfl, prevents⟩

/-- An address point stands twice among the entries and is stored three times: two stores match the
    entries, and the third belongs to the class itself. -/
theorem attribution_exact_sampleParts :
    let s := start .sampleParts (fun _ => none) {} (.ofTable []) []
    ∃ result classes after,
      TypeInfo.attributeStores s.context ⟨0x400008, .general⟩ .sampleParts
        [0x400028, 0x400040, 0x400028] Vtable.sampleParts.addressPoints VptrStore.sampleParts
        s.known = .ok (result, classes) after ∧
      Vtable.sampleParts.Accounts [0x400028, 0x400040, 0x400028] VptrStore.sampleParts result ∧
      result.map (fun a => (a.site, a.classAddress, a.vttIndex)) =
        [(2, 0x400008, some 0), (1, 0x400000, some 1), (3, 0x400008, some 2),
          (4, 0x400008, none)] := by
  intro s
  have identified : s.context.Identified ⟨0x400008, .general⟩ := by
    unfold Context.Identified
    decide +kernel
  have places : ((TypeInfo.attributeStores s.context ⟨0x400008, .general⟩ .sampleParts
      [0x400028, 0x400040, 0x400028] Vtable.sampleParts.addressPoints VptrStore.sampleParts).run'
      s.known).map (·.1.map fun a => (a.site, a.classAddress, a.vttIndex)) =
        some [(2, 0x400008, some 0), (1, 0x400000, some 1), (3, 0x400008, some 2),
          (4, 0x400008, none)] := by decide +kernel
  obtain ⟨found, ran, listed⟩ := Option.map_eq_some_iff.mp places
  obtain ⟨last, answered⟩ := run'_eq_some_iff.mp ran
  rcases attribution_exact .sampleParts (fun _ => none) {} (.ofTable []) [] [] ⟨0x400008, .general⟩
    .sampleParts [0x400028, 0x400040, 0x400028] VptrStore.sampleParts identified (by decide) with
    ⟨result, classes, after, asked, accounts⟩ | ⟨fault, after, stopped, -⟩
  · cases answered.symm.trans asked
    exact ⟨_, _, _, answered, accounts, listed⟩
  · cases answered.symm.trans stopped

end Session

end ItaniumRtti
