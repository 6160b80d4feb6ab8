import ItaniumRtti.Proofs.Vtable.Groups

namespace ItaniumRtti

/-!
# Bases of secondary tables

Each secondary table takes the first base at its place that no table before it has taken, or else
the first virtual base that none has taken.  A class that is a base at two places is taken by the
first table for it, and the second table for it goes on to the virtual bases.

* `baseFor` — the base that a table takes;
* `base_of_attachBases` — each table takes a base in this way;
* `nodup_attachBases` — no base is taken twice;
* `Session.secondaries_serve` — so it is in every vtable that is read, and if no base has two
  places, tables take bases at their own place.
-/

open Recover

/-- The base that a table takes: the first one at its place that is not `taken`, or else the first
    virtual one. -/
def baseFor (placed : List (Int × Int)) (virtuals taken : List Int) (place : Int) : Option Int :=
  ((placed.find? fun p => p.2 == place && !taken.contains p.1).map (·.1)).or
    (virtuals.find? fun base => !taken.contains base)

section

variable {placed : List (Int × Int)} {virtuals taken used : List Int} {place base : Int}
  {tables : List SubTable} {table : SubTable}

/-- The first table takes its base, and the others may not take it again. -/
theorem attachBases_cons (rest : List SubTable) :
    attachBases placed virtuals used (table :: rest) =
      { table with base := baseFor placed virtuals used (-table.offsetToTop) } ::
        attachBases placed virtuals
          ((baseFor placed virtuals used (-table.offsetToTop)).toList ++ used) rest :=
  rfl

/-- Only which bases are taken matters, not in which order. -/
theorem baseFor_congr (same : ∀ b, b ∈ used ↔ b ∈ taken) :
    baseFor placed virtuals used place = baseFor placed virtuals taken place := by
  have contains : ∀ b, used.contains b = taken.contains b := by
    intro b
    rw [Bool.eq_iff_iff, List.contains_iff_mem, List.contains_iff_mem, same]
  unfold baseFor
  simp only [contains]

theorem not_contains_iff : (!taken.contains base) = true ↔ base ∉ taken := by
  rw [Bool.not_eq_true', Bool.eq_false_iff, Ne, List.contains_iff_mem]

/-- A base at the place is taken if there is one left. -/
theorem baseFor_of_placed (member : (base, place) ∈ placed) (free : base ∉ taken) :
    ∃ other, (other, place) ∈ placed ∧ other ∉ taken ∧
      baseFor placed virtuals taken place = some other := by
  unfold baseFor
  cases found : placed.find? (fun p => p.2 == place && !taken.contains p.1) with
  | none =>
    have refused := List.find?_eq_none.mp found _ member
    rw [Bool.and_eq_true, beq_iff_eq, not_contains_iff] at refused
    exact absurd ⟨rfl, free⟩ refused
  | some p =>
    have chosen := List.find?_some found
    rw [Bool.and_eq_true, beq_iff_eq, not_contains_iff] at chosen
    exact ⟨p.1, chosen.1 ▸ List.mem_of_find?_eq_some found, chosen.2, rfl⟩

/-- If none is left, the next virtual base is taken. -/
theorem baseFor_of_taken (gone : ∀ base, (base, place) ∈ placed → base ∈ taken) :
    baseFor placed virtuals taken place = virtuals.find? (fun b => !taken.contains b) := by
  have none : placed.find? (fun p => p.2 == place && !taken.contains p.1) = none := by
    rw [List.find?_eq_none]
    intro p member chosen
    rw [Bool.and_eq_true, beq_iff_eq, not_contains_iff] at chosen
    exact chosen.2 (gone p.1 (chosen.1 ▸ member))
  unfold baseFor
  rw [none, Option.map_none, Option.none_or]

/-- What is taken stands at the place or is a virtual base, and was not taken before. -/
theorem of_baseFor (chosen : baseFor placed virtuals taken place = some base) :
    base ∉ taken ∧ ((base, place) ∈ placed ∨ base ∈ virtuals) := by
  by_cases left : ∃ other, (other, place) ∈ placed ∧ other ∉ taken
  · obtain ⟨other, member, free⟩ := left
    obtain ⟨first, listed, unused, same⟩ := baseFor_of_placed  member free
    cases chosen.symm.trans same
    exact ⟨unused, .inl listed⟩
  · have gone : ∀ other, (other, place) ∈ placed → other ∈ taken := by
      intro other member
      by_contra free
      exact left ⟨other, member, free⟩
    rw [baseFor_of_taken gone] at chosen
    have unused := List.find?_some chosen
    exact ⟨not_contains_iff.mp unused, .inr (List.mem_of_find?_eq_some chosen)⟩

/-- If more bases are taken, the next virtual base is a later one. -/
theorem sublist_of_next {later : Int} (more : base :: taken ⊆ used)
    (first : virtuals.find? (fun b => !taken.contains b) = some base)
    (next : virtuals.find? (fun b => !used.contains b) = some later) :
    [base, later].Sublist virtuals := by
  obtain ⟨-, front, rest, rfl, passed⟩ := List.find?_eq_some_iff_append.mp first
  have gone : ∀ b ∈ front, b ∈ used := by
    intro b member
    have refused := passed b member
    rw [Bool.not_not, List.contains_iff_mem] at refused
    exact more (List.mem_cons_of_mem _ refused)
  have none : front.find? (fun b => !used.contains b) = none :=
    List.find?_eq_none.mpr fun b member free => not_contains_iff.mp free (gone b member)
  -- the search goes past what stands before the first of the two, and past it
  rw [List.find?_append, none, Option.none_or, List.find?_cons_of_neg] at next
  · have listed : later ∈ rest := List.mem_of_find?_eq_some next
    exact (List.Sublist.cons_cons base (List.singleton_sublist.mpr listed)).trans
      (List.sublist_append_right front _)
  · exact fun free => not_contains_iff.mp free (more (List.mem_cons_self ..))

/-- **Each table takes a base that the tables before it have left.** -/
theorem base_of_attachBases {front rest : List SubTable}
    (split : attachBases placed virtuals used tables = front ++ table :: rest) :
    table.base =
      baseFor placed virtuals (front.filterMap (·.base) ++ used) (-table.offsetToTop) := by
  induction tables generalizing used front with
  | nil =>
    have length := congrArg List.length split
    simp only [attachBases, List.length_nil, List.length_append, List.length_cons] at length
    omega
  | cons first tables ih =>
    rw [attachBases_cons] at split
    cases front with
    | nil =>
      cases split
      rfl
    | cons second front =>
      obtain ⟨same, following⟩ := List.cons.inj split
      subst same
      rw [ih following]
      -- the tables before it have taken the same bases, whichever of them came last
      refine baseFor_congr fun b => ?_
      rw [List.filterMap_cons]
      cases baseFor placed virtuals used (-first.offsetToTop) with
      | none => rfl
      | some taken =>
        simp only [Option.toList_some, List.mem_append, List.mem_cons, List.not_mem_nil, or_false]
        exact or_left_comm.trans or_assoc.symm

/-- No base is taken twice, and none that was taken before. -/
theorem nodup_attachBases (placed : List (Int × Int)) (virtuals used : List Int)
    (tables : List SubTable) :
    ((attachBases placed virtuals used tables).filterMap (·.base)).Nodup ∧
      ∀ b ∈ (attachBases placed virtuals used tables).filterMap (·.base), b ∉ used := by
  induction tables generalizing used with
  | nil => exact ⟨List.nodup_nil, List.forall_mem_nil _⟩
  | cons table rest ih =>
    rw [attachBases_cons, List.filterMap_cons]
    cases chosen : baseFor placed virtuals used (-table.offsetToTop) with
    | none => exact ih used
    | some base =>
      obtain ⟨distinct, others⟩ := ih (base :: used)
      have unused : ∀ b ∈ (attachBases placed virtuals (base :: used) rest).filterMap (·.base),
          b ≠ base ∧ b ∉ used :=
        fun b member => not_or.mp fun taken => others b member (List.mem_cons.mpr taken)
      -- what is taken here is not taken again, nor was it taken before
      refine ⟨List.nodup_cons.mpr ⟨fun again => ?_, distinct⟩, List.forall_mem_cons.mpr ⟨?_, ?_⟩⟩
      · exact (unused base again).1 rfl
      · exact (of_baseFor chosen).1
      · exact fun b member => (unused b member).2

end

/-! ### Vtables -/

namespace SubTable

/-- The bases at the place that the table is for, by address. -/
def candidates (placed : List (TypeInfo × Int)) (table : SubTable) : List Int :=
  (placed.filter (·.2 = -table.offsetToTop)).map (·.1.address)

/-- The tables before this one serve all bases at its place. -/
def Exhausted (placed : List (TypeInfo × Int)) (front : List SubTable) (table : SubTable) : Prop :=
  ∀ base ∈ table.candidates placed, base ∈ front.filterMap (·.base)

/-- No base is at two places after the start of the object, and none there is a virtual base. -/
structure PlacedOnce (placed : List (TypeInfo × Int)) (virtuals : List TypeInfo) : Prop where
  /-- There is one place. -/
  place : ∀ p ∈ placed, ∀ q ∈ placed, p.1.address = q.1.address → p.2 ≠ 0 → q.2 ≠ 0 → p.2 = q.2
  /-- It is not a virtual base. -/
  plain : ∀ p ∈ placed, p.2 ≠ 0 → ∀ base ∈ virtuals, base.address ≠ p.1.address

/-- The secondary tables serve bases at their own place first, and virtual bases next. -/
structure Serve (placed : List (TypeInfo × Int)) (virtuals : List TypeInfo)
    (tables : List SubTable) : Prop where
  /-- A table serves a base at its place if and only if the tables before it have left one. -/
  own : ∀ front table rest, tables = front ++ table :: rest →
    ((∃ base ∈ table.candidates placed, table.base = some base) ↔ ¬ table.Exhausted placed front)
  /-- If they have left none, it serves the first virtual base that they have left. -/
  fallback : ∀ front table rest, tables = front ++ table :: rest → table.Exhausted placed front →
    table.base = (virtuals.map (·.address)).find? (fun base =>
      !(front.filterMap (·.base)).contains base)
  /-- Virtual bases are served in their order. -/
  order : ∀ front earlier between later rest,
    tables = front ++ earlier :: between ++ later :: rest →
    earlier.Exhausted placed front → later.Exhausted placed (front ++ earlier :: between) →
    ∀ first next, earlier.base = some first → later.base = some next →
    [first, next].Sublist (virtuals.map (·.address))
  /-- If no base has two places, tables with different offsets to the top serve bases at their own
      places. -/
  once : PlacedOnce placed virtuals → (tables.map (·.offsetToTop)).Nodup →
    ∀ table ∈ tables, table.candidates placed ≠ [] →
    ∃ base ∈ table.candidates placed, table.base = some base

variable {placed : List (TypeInfo × Int)} {virtuals : List TypeInfo} {tables front : List SubTable}
  {table : SubTable} {base : Int}

theorem mem_candidates : base ∈ table.candidates placed ↔
    ∃ p ∈ placed, p.2 = -table.offsetToTop ∧ p.1.address = base := by
  unfold candidates
  simp only [List.mem_map, List.mem_filter, decide_eq_true_eq, and_assoc]

theorem mem_placesOf {place : Int} : (base, place) ∈ TypeInfo.placesOf placed ↔
    ∃ p ∈ placed, p.2 ≠ 0 ∧ p.1.address = base ∧ p.2 = place := by
  unfold TypeInfo.placesOf
  simp only [List.mem_map, List.mem_filter, decide_eq_true_eq, and_assoc, Prod.mk.injEq]

/-- For a table that is not at the top, its candidates are the bases that are looked at. -/
theorem mem_placesOf_iff (nonzero : table.offsetToTop ≠ 0) :
    (base, -table.offsetToTop) ∈ TypeInfo.placesOf placed ↔ base ∈ table.candidates placed := by
  rw [mem_placesOf, mem_candidates]
  constructor
  · rintro ⟨p, member, -, same, here⟩
    exact ⟨p, member, here, same⟩
  · rintro ⟨p, member, here, same⟩
    exact ⟨p, member, by omega, same, here⟩

section

variable {bare rest : List SubTable} (nonzero : ∀ table ∈ tables, table.offsetToTop ≠ 0)
  (attached : tables = attachBases (TypeInfo.placesOf placed) (virtuals.map (·.address)) [] bare)

include nonzero attached

/-- Each table takes a base that the tables before it have left. -/
theorem base_eq_baseFor (split : tables = front ++ table :: rest) :
    table.offsetToTop ≠ 0 ∧ table.base = baseFor (TypeInfo.placesOf placed)
      (virtuals.map (·.address)) (front.filterMap (·.base)) (-table.offsetToTop) := by
  have here := base_of_attachBases (attached.symm.trans split)
  rw [List.append_nil] at here
  exact ⟨nonzero table (split ▸ List.mem_append_right _ (List.mem_cons_self ..)), here⟩

/-- A table serves a base at its place if and only if one is left. -/
theorem serves_candidate_iff (split : tables = front ++ table :: rest) :
    (∃ base ∈ table.candidates placed, table.base = some base) ↔
      ¬ table.Exhausted placed front := by
  obtain ⟨top, chosen⟩ := base_eq_baseFor nonzero attached split
  constructor
  · rintro ⟨base, candidate, serves⟩ exhausted
    exact (of_baseFor (chosen.symm.trans serves)).1 (exhausted base candidate)
  · intro left
    unfold Exhausted at left
    push Not at left
    obtain ⟨base, candidate, free⟩ := left
    obtain ⟨other, listed, -, same⟩ := baseFor_of_placed ((mem_placesOf_iff top).mpr candidate) free
    exact ⟨other, (mem_placesOf_iff top).mp listed, chosen.trans same⟩

/-- If none is left, it serves the first virtual base that is left. -/
theorem base_of_exhausted (split : tables = front ++ table :: rest)
    (exhausted : table.Exhausted placed front) :
    table.base = (virtuals.map (·.address)).find? (fun base =>
      !(front.filterMap (·.base)).contains base) := by
  obtain ⟨top, chosen⟩ := base_eq_baseFor nonzero attached split
  rw [chosen]
  exact baseFor_of_taken fun base member => exhausted base ((mem_placesOf_iff top).mp member)

/-- If two tables serve virtual bases, the later one serves a later one. -/
theorem sublist_of_exhausted {earlier later : SubTable} {between : List SubTable}
    {first next : Int} (split : tables = front ++ earlier :: between ++ later :: rest)
    (gone : earlier.Exhausted placed front)
    (goneToo : later.Exhausted placed (front ++ earlier :: between))
    (serves : earlier.base = some first) (servesToo : later.base = some next) :
    [first, next].Sublist (virtuals.map (·.address)) := by
  have alone : tables = front ++ earlier :: (between ++ later :: rest) := by
    rw [split, List.append_assoc, List.cons_append]
  -- the later table finds all that the earlier one passed over taken, and its base too
  refine sublist_of_next ?_ ((base_of_exhausted nonzero attached alone gone).symm.trans serves)
    ((base_of_exhausted nonzero attached split goneToo).symm.trans servesToo)
  rw [List.filterMap_append, List.filterMap_cons, serves]
  intro base member
  rcases List.mem_cons.mp member with rfl | before
  · exact List.mem_append_right _ (List.mem_cons_self ..)
  · exact List.mem_append_left _ before

/-- A base with one place is left for the table at this place. -/
theorem not_exhausted_of_placedOnce (placedOnce : PlacedOnce placed virtuals)
    (distinct : (tables.map (·.offsetToTop)).Nodup) (split : tables = front ++ table :: rest)
    (nonempty : table.candidates placed ≠ []) : ¬ table.Exhausted placed front := by
  intro exhausted
  obtain ⟨base, candidate⟩ := List.exists_mem_of_ne_nil _ nonempty
  obtain ⟨p, member, here, same⟩ := mem_candidates.mp candidate
  obtain ⟨top, -⟩ := base_eq_baseFor nonzero attached split
  -- an earlier table serves the base, at the base's only place
  obtain ⟨earlier, before, serves⟩ := List.mem_filterMap.mp (exhausted base candidate)
  obtain ⟨first, between, rfl⟩ := List.append_of_mem before
  rw [List.append_assoc, List.cons_append] at split
  obtain ⟨low, chosen⟩ := base_eq_baseFor nonzero attached split
  rcases (of_baseFor (chosen.symm.trans serves)).2 with listed | virtual
  · obtain ⟨q, listed, -, alike, there⟩ := mem_placesOf.mp listed
    have places := placedOnce.place p member q listed (same.trans alike.symm) (by omega) (by omega)
    have tops : earlier.offsetToTop = table.offsetToTop := by omega
    rw [split, List.map_append, List.map_cons, List.map_append, List.map_cons, tops] at distinct
    have twice := (List.nodup_cons.mp (List.nodup_append.mp distinct).2.1).1
    exact twice (List.mem_append_right _ (List.mem_cons_self ..))
  · obtain ⟨v, listed, alike⟩ := List.mem_map.mp virtual
    exact placedOnce.plain p member (by omega) v listed (alike.trans same.symm)

/-- **Bases are attached to tables by place first, and virtual bases in order.** -/
theorem serve_attachBases : Serve placed virtuals tables where
  own := fun _ _ _ => serves_candidate_iff nonzero attached
  fallback := fun _ _ _ => base_of_exhausted nonzero attached
  order := fun _ _ _ _ _ split gone goneToo _ _ =>
    sublist_of_exhausted nonzero attached split gone goneToo
  once := by
    intro placedOnce distinct table member nonempty
    obtain ⟨front, rest, split⟩ := List.append_of_mem member
    exact (serves_candidate_iff nonzero attached split).mpr
      (not_exhausted_of_placedOnce nonzero attached placedOnce distinct split nonempty)

end

end SubTable

namespace Session

/-- **Secondary tables serve bases by place first.**  In the vtable of a class that is read in a
    session, each secondary table serves a base at its place if the tables before it serve not all
    of these, and else the first virtual base that they do not serve.  Where a class is a base at
    two places, the second table for it gets a virtual base or none; where no class is, every table
    with a base at its place serves such a base. -/
theorem secondaries_serve (image : Image) (demangle : Demangler) (limits : Limits)
    (detector : Detector) (listing : Listing) (queries : List Query) (t : TypeInfo) (address : Int)
    (v : Vtable) (after : Knowledge) :
    let s := (start image demangle limits detector listing).after queries
    let ctx := s.context
    ctx.Identified t → t.vtableAt? ctx address s.known = .ok (some v) after → v.tables.tail ≠ [] →
    ∃ placed virtuals, t.baseOffsets ctx after = .ok placed after ∧
      t.virtualBases ctx after = .ok virtuals after ∧
      SubTable.Serve placed virtuals v.tables.tail := by
  intro s ctx identified read more
  obtain ⟨g, parsed⟩ := parsed_of_vtableAt? rfl identified read
  obtain ⟨placed, virtuals, bare, offsets, asked, same⟩ := parsed.attached.resolve_left more
  -- Bases at the start of the object are not listed, so no table may be for that place.
  refine ⟨placed, virtuals, offsets, asked, SubTable.serve_attachBases ?_ same⟩
  exact fun table member => parsed.follow.offsetToTop_ne_zero member

/-- In the program with a repeated base, it is a base at two places. -/
theorem baseOffsets_sampleRepeated {after : Knowledge} {found : Option Vtable}
    (read : TypeInfo.vtableAt? sampleRepeated.context ⟨0x400028, .general⟩ 0x400050
      sampleRepeated.known = .ok found after) :
    (TypeInfo.baseOffsets sampleRepeated.context ⟨0x400028, .general⟩).run' after =
      some [(⟨0x400000, .simple⟩, 4), (⟨0x400010, .general⟩, 8), (⟨0x400000, .simple⟩, 12)] :=
  calc
    _ = (TypeInfo.vtableAt? sampleRepeated.context ⟨0x400028, .general⟩ 0x400050 >>= fun _ =>
          TypeInfo.baseOffsets sampleRepeated.context ⟨0x400028, .general⟩).run'
          sampleRepeated.known := by
      delta EStateM.run' EStateM.run
      rw [bind_ok read]
    _ = _ := by decide +kernel

/-- The second table for the repeated base serves the virtual base, since the first one serves the
    repeated base already. -/
theorem secondaries_serve_sampleRepeated : ∃ after placed virtuals,
    TypeInfo.vtableAt? sampleRepeated.context ⟨0x400028, .general⟩ 0x400050 sampleRepeated.known =
      .ok (some .sampleRepeated) after ∧
    TypeInfo.baseOffsets sampleRepeated.context ⟨0x400028, .general⟩ after = .ok placed after ∧
    SubTable.Serve placed virtuals Vtable.sampleRepeated.tables.tail ∧
    ∃ last ∈ Vtable.sampleRepeated.tables.tail,
      last.candidates placed = [0x400000] ∧ last.base = some 0x400008 := by
  obtain ⟨after, read⟩ := vtableAt?_sampleRepeated
  obtain ⟨placed, virtuals, offsets, asked, serve⟩ :=
    secondaries_serve .sampleRepeated _ {} (.ofTable []) [] [] _ _ _ after
      identified_sampleRepeated read (List.cons_ne_nil _ _)
  refine ⟨after, placed, virtuals, read, offsets, serve, _,
    List.getLast_mem (List.cons_ne_nil _ _), ?_, rfl⟩
  obtain ⟨later, answer⟩ := run'_eq_some_iff.mp (baseOffsets_sampleRepeated read)
  cases offsets.symm.trans answer
  rfl

end Session

end ItaniumRtti
