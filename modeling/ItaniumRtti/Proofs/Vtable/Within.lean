import ItaniumRtti.Proofs.Hierarchy.Offsets
import ItaniumRtti.Proofs.Hierarchy.Virtuals
import ItaniumRtti.Proofs.Session.Cancelled
import ItaniumRtti.Proofs.StoreIndex

namespace ItaniumRtti

/-!
# Vtables within their hierarchies

To read a vtable of a class, the whole hierarchy of the class is walked over, and the bases that its
secondary tables serve are taken from this walk.  Both can still be seen later in the session: the
walk can be repeated, whatever the limits are then.

* `Vtable.Within` — the hierarchy of a class is known, and a vtable serves classes of it only;
* `TypeInfo.locateVtable_within` — vtables that are read or located are of this kind;
* `Context.TablesWithin` — so are all vtables that are kept;
* `Context.upholds_within` — every question keeps this invariant;
* `Session.within_of_given` — so every vtable that a session gives is of this kind, then and later.
-/

open Recover

/-- The walk over the hierarchy of `t` can be repeated, and the tables serve classes on it. -/
def Vtable.Within (v : Vtable) (ctx : Context) (known : Knowledge) (t : TypeInfo) : Prop :=
  ∃ edges, t.edges ctx known = .ok edges known ∧ v.Serves (· ∈ t :: edges.map (·.target))

namespace Context

variable {ctx : Context} {G : BaseGraph} {known later : Knowledge} {t c : TypeInfo} {v : Vtable}

/-- The classes on the walk from a class are those that can be reached from it. -/
theorem Draws.mem_edges_iff (draws : ctx.Draws G known) (identified : ctx.Identified t)
    {edges : List Base} {after : Knowledge} (walked : t.edges ctx known = .ok edges after) :
    c ∈ t :: edges.map (·.target) ↔ Relation.ReflTransGen G.Edge t c := by
  -- The walk did not stop, since there is an answer.
  rcases draws.edges identified with
    ⟨bases, met, entered, last, listed, found, -, walk⟩ | ⟨_, _, _, stopped, -⟩
  swap
  · cases walked.symm.trans stopped
  cases walked.symm.trans found
  constructor
  · intro member
    rcases List.mem_cons.mp member with rfl | below
    · exact .refl
    · obtain ⟨e, here, rfl⟩ := List.mem_map.mp below
      obtain ⟨d, path, bases', known', base⟩ := (walk.mem_met_iff_reaches listed).mp here
      exact path.tail (BaseGraph.edge_of_mem known' base)
  · intro path
    rcases path.cases_tail with rfl | ⟨d, before, bases', known', b, base, rfl⟩
    · exact List.mem_cons_self ..
    · refine List.mem_cons_of_mem t (List.mem_map_of_mem ?_)
      exact (walk.mem_met_iff_reaches listed).mpr ⟨d, before, bases', known', base⟩

end Context

namespace Vtable.Within

variable {ctx : Context} {G : BaseGraph} {known later : Knowledge} {t : TypeInfo} {v : Vtable}

/-- What is known of a hierarchy lasts, also within other limits. -/
theorem mono (within : v.Within ctx known t) (identified : ctx.Identified t)
    (grounded : ctx.Grounded known) (still : ctx.Grounded later) (grows : known.Grows later)
    (limits : Limits) (cancelled : Bool) :
    v.Within (ctx.withSettings limits cancelled) later t := by
  obtain ⟨edges, walked, serves⟩ := within
  have repeating := Context.edges_repeating limits cancelled identified
  exact ⟨edges, repeating.again grounded walked still grows, serves⟩

/-- The hierarchy is well-formed, and the tables serve classes of it. -/
theorem serves (within : v.Within ctx known t) (draws : ctx.Draws G known)
    (identified : ctx.Identified t) : G.WellFormed t ∧
      v.Serves fun c => ctx.Identified c ∧ Relation.ReflTransGen G.Edge t c := by
  obtain ⟨edges, walked, serves⟩ := within
  refine ⟨draws.wellFormed identified walked, fun table member base attached => ?_⟩
  obtain ⟨c, listed, rfl⟩ := serves table member base attached
  have path := (draws.mem_edges_iff identified walked).mp listed
  exact ⟨c, ⟨draws.reached identified path, path⟩, rfl⟩

end Vtable.Within

/-! ### Vtables that are read -/

namespace TypeInfo

variable {ctx : Context} {known : Knowledge} {t : TypeInfo} {v : Vtable}

/-- The bases that tables serve were found on the walk over the hierarchy. -/
theorem Parsed.within {address : Int} {g : Group} (parsed : t.Parsed ctx known address g v)
    (grounded : ctx.Grounded known) (identified : ctx.Identified t) : v.Within ctx known t := by
  obtain ⟨ancestors, asked, -⟩ := parsed.count
  obtain ⟨edges, _, walked, made⟩ := of_bind_ok asked
  cases made
  refine ⟨edges, walked, fun table member base serves => ?_⟩
  have draws := grounded.draws
  obtain ⟨primary, rest, split⟩ := List.exists_cons_of_ne_nil parsed.nonempty
  have first := parsed.primary primary (by rw [split]; rfl)
  have attached := parsed.attached
  rw [split] at member attached
  rcases List.mem_cons.mp member with rfl | secondary
  · -- the first table serves the class itself, and names no base
    cases first.symm.trans serves
  rcases attached with none | ⟨placed, virtuals, bare, offsets, listed, same⟩
  · rw [List.tail_cons] at none
    rw [none] at secondary
    cases secondary
  rw [List.tail_cons] at same
  rw [same] at secondary
  rcases mem_of_attachBases secondary serves with place | virtual
  · -- a base at an offset is at the end of a path
    obtain ⟨_, mapped, rfl⟩ := List.mem_map.mp place
    obtain ⟨p, kept, rfl⟩ := List.mem_map.mp mapped
    obtain ⟨bases, _, _, -, again, -, explores⟩ :=
      draws.baseOffsets identified (draws.wellFormed identified walked)
    cases offsets.symm.trans again
    have path := explores.sound t (.inl ⟨rfl, rfl⟩) (List.forall_mem_nil _) p
      (List.mem_of_mem_filter kept)
    exact ⟨p.1, (draws.mem_edges_iff identified walked).mpr path.reaches.to_reflTransGen, rfl⟩
  · -- a virtual base is the target of an edge of the walk
    obtain ⟨c, here, rfl⟩ := List.mem_map.mp virtual
    obtain ⟨_, collected⟩ := grounded.virtualBases_of_edges identified walked
    cases listed.symm.trans collected
    obtain ⟨e, edge, rfl⟩ := List.mem_map.mp (mem_of_mem_firstOccurrences here)
    exact ⟨_, List.mem_cons_of_mem t (List.mem_map_of_mem (List.mem_of_mem_filter edge)), rfl⟩

/-- Vtables that are read at an address. -/
theorem vtableAt?_within (identified : ctx.Identified t) (address : Int) :
    Settles ctx (fun known found => ∀ v, found = some v → v.Within ctx known t)
      (t.vtableAt? ctx address) := by
  refine Settles.grounded ((vtableAt?_settles identified address).mono ?_)
  intro known found parsed grounded v is
  obtain ⟨g, parsed⟩ := parsed v is
  exact parsed.within grounded identified

/-- Vtables that are read from a header on. -/
theorem vtableWithHeader?_within (identified : ctx.Identified t) (header : Int) :
    Settles ctx (fun known found => ∀ v, found = some v → v.Within ctx known t)
      (t.vtableWithHeader? ctx header) := by
  have none : ∀ known v, none = some v → Vtable.Within v ctx known t :=
    fun known v found => by cases found
  unfold vtableWithHeader?
  refine .ite (fun _ => .pure none) fun _ => (Settles.lift _).bind fun word _ => ?_
  refine .ite (fun _ => .pure fun known _ => none known) fun _ => ?_
  refine (Settles.lift _).bind fun most _ => (Settles.lift _).bind fun start _ => ?_
  refine (vtableAt?_within identified start).bind fun found _ => .pure ?_
  intro known within _ _ _ v kept
  exact within v (Option.filter_eq_some_iff.mp kept).1

/-- The best vtable, if the fallback serves classes of the hierarchy only. -/
theorem bestVtable_within (identified : ctx.Identified t) (references : List Int)
    (fallback : Option Vtable) :
    Settles ctx (fun known found => (∀ v, fallback = some v → v.Within ctx known t) →
      ∀ v, found = some v → v.Within ctx known t) (t.bestVtable ctx fallback references) := by
  induction references generalizing fallback with
  | nil => exact .pure fun known within => within
  | cons reference rest ih =>
    unfold bestVtable
    refine (vtableWithHeader?_within identified _).bind fun found _ => ?_
    cases found with
    | none => exact (ih fallback).mono fun known found best _ => best
    | some v =>
      -- either this vtable is the best one, or it is the fallback unless there is one already
      refine .ite (fun _ => .pure fun known here _ => here) fun _ => ?_
      refine (ih _).mono fun known found best here before => best ?_
      intro w chosen
      rcases Option.or_eq_some_iff.mp chosen with old | ⟨-, new⟩
      · exact before w old
      · exact here w new

/-- **Vtables that are located.** -/
theorem locateVtable_within (identified : ctx.Identified t) :
    Settles ctx (fun known v => v.isValid = true → v.Within ctx known t) (t.locateVtable ctx) := by
  unfold locateVtable
  -- First by the symbol, then from the references to the class.
  have named : Settles ctx (fun known found => ∀ v, found = some v → v.Within ctx known t)
      (t.vtableBySymbol? ctx) := by
    have none : ∀ known v, none = some v → Vtable.Within v ctx known t :=
      fun known v found => by cases found
    unfold vtableBySymbol?
    refine (Group.typeName_settles identified).bind fun name _ => ?_
    refine .ite (fun _ => .pure fun known _ => none known) fun _ => ?_
    cases ctx.image.symbolAddress? (vtablePrefix ++ name) with
    | none => exact .pure fun known _ => none known
    | some address => exact (vtableAt?_within identified address).mono fun _ _ within _ => within
  refine named.bind fun found _ => ?_
  cases found with
  | some v => exact .pure fun known within _ => within v rfl
  | none =>
    refine (Settles.lift _).bind fun references _ => ?_
    refine (bestVtable_within identified references none).bind fun best _ => .pure ?_
    intro known within _ _ valid
    cases best with
    | none => cases valid
    | some v => exact within (fun w none => by cases none) v rfl

end TypeInfo

/-! ### Vtables that are kept -/

namespace Context

variable {ctx : Context} {G : BaseGraph} {known later : Knowledge}

/-- Each vtable that is kept for a class serves classes of its hierarchy only. -/
def TablesWithin (ctx : Context) (known : Knowledge) : Prop :=
  ∀ ⦃t v⦄, ctx.Identified t → known.HasVtable t.address v → v.isValid = true →
    v.Within ctx known t

namespace TablesWithin

variable (all : ctx.TablesWithin known) (grounded : ctx.Grounded known)
include all grounded

/-- Nothing else that is learned changes this. -/
theorem grow (still : ctx.Grounded later) (grows : known.Grows later)
    (same : later.vtables = known.vtables) : ctx.TablesWithin later := by
  intro t v identified has valid
  unfold Knowledge.HasVtable at has
  rw [same] at has
  exact (all identified has valid).mono identified grounded still grows ctx.limits ctx.cancelled

/-- Limits and cancellation do not matter for what is kept. -/
theorem withSettings (limits : Limits) (cancelled : Bool) :
    (ctx.withSettings limits cancelled).TablesWithin known := by
  intro t v identified has valid
  exact (all identified has valid).mono identified grounded grounded (.refl known) limits cancelled

end TablesWithin

/-- **Every question keeps vtables within their hierarchies.**  A cell is still empty when an answer
    is put there, so that knowledge grows by it. -/
theorem upholds_within (ctx : Context) (G : BaseGraph) :
    ctx.UpholdsCells (fun k => ctx.Draws G k ∧ ctx.TablesWithin k) ctx.Identified where
  good := identified_of_identify
  meet {k _ _} found holds := by
    obtain ⟨draws, all⟩ := holds
    have next := (ctx.upholds_draws G).meet found draws
    exact ⟨next, all.grow draws.grounded next.grounded (draws.grounded.grows_meet found) rfl⟩
  mark {k} place holds := by
    obtain ⟨draws, all⟩ := holds
    obtain ⟨still, grows⟩ := (ctx.upholds_grows k).mark place ⟨draws.grounded, .refl k⟩
    exact ⟨(ctx.upholds_draws G).mark place draws, all.grow draws.grounded still grows rfl⟩
  named {before k t form name} earlier new holds identified asked := by
    obtain ⟨draws, all⟩ := holds
    have next := (ctx.upholds_draws G).named earlier.1 new draws identified asked
    -- The cell of the class is empty, so nothing that was kept is lost.
    have empty := ((ctx.readName_stays t form).of_ok new asked).2
    have grows : k.Grows { k with names := k.names.insert t.address name form } :=
      { Knowledge.Grows.refl k with names := (NameCells.Kept.refl _).insertNew name empty }
    exact ⟨next, all.grow draws.grounded next.grounded grows rfl⟩
  listed holds := (ctx.upholds_draws G).listed holds.1
  read {before k t bases} earlier new holds identified targets asked := by
    obtain ⟨draws, all⟩ := holds
    have next := (ctx.upholds_draws G).read earlier.1 new draws identified targets asked
    have empty : k.bases[t.address]? = none :=
      ((ctx.readBases_keeps t fun cells => cells[t.address]? = none).of_ok new asked).2
    have grows : k.Grows { k with bases := k.bases.insert t.address bases } :=
      { Knowledge.Grows.refl k with bases := (Cells.Kept.refl _).insertNew bases empty }
    exact ⟨next, all.grow draws.grounded next.grounded grows rfl⟩
  collection holds := (ctx.upholds_draws G).collection holds.1
  collected {before k t classes} earlier new holds identified targets asked := by
    obtain ⟨draws, all⟩ := holds
    have next := (ctx.upholds_draws G).collected earlier.1 new draws identified targets asked
    have empty := ((ctx.collectVirtualBases_stays t).of_ok new asked).2
    have grows : k.Grows { k with virtualBases := k.virtualBases.insert t.address classes } :=
      { Knowledge.Grows.refl k with virtualBases := (Cells.Kept.refl _).insertNew classes empty }
    exact ⟨next, all.grow draws.grounded next.grounded grows rfl⟩
  served holds := (ctx.upholds_draws G).served holds.1
  located {before k t v} earlier new holds identified serves asked := by
    obtain ⟨draws, all⟩ := holds
    have next := (ctx.upholds_draws G).located earlier.1 new draws identified serves asked
    refine ⟨next, ?_⟩
    have empty : k.vtables[t.address]? = none :=
      ((ctx.locateVtable_keeps t fun cells => cells[t.address]? = none).of_ok new asked).2
    have grows : k.Grows { k with vtables := k.vtables.insert t.address v } :=
      { Knowledge.Grows.refl k with vtables := (Cells.Kept.refl _).insertNew v empty }
    obtain ⟨-, -, within⟩ := TypeInfo.locateVtable_within identified earlier.1.grounded asked
    intro u w there has valid
    replace has : (k.vtables.insert t.address v)[u.address]? = some w := has
    rw [Std.TreeMap.getElem?_insert] at has
    split at has
    · next same =>
      have is := identified.eq_of_address there (Std.compare_eq_iff_eq.mp same)
      subst is
      cases has
      exact within _ next.grounded grows valid
    · exact (all there has valid).mono there draws.grounded next.grounded grows ctx.limits
        ctx.cancelled
  vtt {before k t vtt} earlier new holds identified asked := by
    obtain ⟨draws, all⟩ := holds
    have next := (ctx.upholds_draws G).vtt earlier.1 new draws identified asked
    have empty : k.vtts[t.address]? = none :=
      ((ctx.locateVtt_keeps t fun cells => cells[t.address]? = none).of_ok new asked).2
    have grows : k.Grows { k with vtts := k.vtts.insert t.address vtt } :=
      { Knowledge.Grows.refl k with vtts := (Cells.Kept.refl _).insertNew vtt empty }
    exact ⟨next, all.grow draws.grounded next.grounded grows rfl⟩
  stores {k} book holds := by
    obtain ⟨draws, all⟩ := holds
    have next := (ctx.upholds_draws G).stores book draws
    exact ⟨next, all.grow draws.grounded next.grounded { Knowledge.Grows.refl k with } rfl⟩

end Context

/-! ### Sessions -/

namespace Session

variable {s : Session} {t : TypeInfo} {v : Vtable}

/-- What one query keeps. -/
theorem ask_tablesWithin (grounded : s.Grounded) (all : s.context.TablesWithin s.known)
    (query : Query) : (s.ask query).2.context.TablesWithin (s.ask query).2.known := by
  obtain ⟨still, leads⟩ := ask_leads grounded query
  have keeps := recover_keeps (s.context.upholds_within (s.context.graph s.known)) query
  have begins : s.context.Draws (s.context.graph s.known) s.known := grounded.draws
  rw [leads.context]
  refine Context.TablesWithin.withSettings ?_ (leads.grounded_iff.mp still) _ _
  rcases keeps.ends ⟨begins, all⟩ with
    ⟨answer, known, answered, -, -, next⟩ | ⟨fault, known, stopped, -, next⟩
  · rw [ask_ok answered]
    exact next
  · rw [ask_error stopped]
    exact next

/-- What a run of queries keeps, by induction on the queries. -/
theorem after_tablesWithin (grounded : s.Grounded) (all : s.context.TablesWithin s.known)
    (queries : List Query) : (s.after queries).context.TablesWithin (s.after queries).known := by
  induction queries generalizing s with
  | nil => exact all
  | cons query rest ih =>
    exact ih (ask_leads grounded query).1 (ask_tablesWithin grounded all query)

/-- At the start no vtable is kept. -/
theorem tablesWithin_start (image : Image) (demangle : Demangler) (limits : Limits)
    (table : Detector) (listing : Listing) :
    let s := start image demangle limits table listing
    s.context.TablesWithin s.known := by
  intro s t v _ has _
  cases has

/-- Other questions than those for a vtable are answered in other ways. -/
theorem askClass_givesNoVtable (s : Session) (t : TypeInfo) {question : ClassQuery}
    (own : question ≠ .vtable) (located : question ≠ .locateVtable)
    (read : ∀ place, question ≠ .vtableAt place) :
    Yields (fun answer => ∀ v, answer ≠ .vtable (some v)) (s.askClass t question) := by
  rw [askClass.eq_def]
  cases question with
  | vtable => exact absurd rfl own
  | locateVtable => exact absurd rfl located
  | vtableAt place => exact absurd rfl (read place)
  | locateVtt choice => exact .andThen fun _ => .andThen fun _ => .pure (by simp)
  | vttAt address choice => exact .andThen fun _ => .andThen fun _ => .pure (by simp)
  | correlate what =>
    dsimp only
    rw [askCorrelation_eq]
    refine .andThen fun d => .andThen fun vtt => .andThen fun w => ?_
    have found : Yields (fun answer => ∀ v, answer ≠ .vtable (some v))
        (s.correlation t what d vtt w) :=
      .andThen fun _ => .andThen fun _ => .andThen fun _ => .pure (by simp)
    exact .ite found (withOwnStores_yields found)
  | _ => exact .andThen fun _ => .pure (by simp)

/-- A vtable is given as the own one, as one that is located, or as one that is read at an address.
    -/
theorem of_askClass_vtable {question : ClassQuery} {known after : Knowledge}
    (answered : s.askClass t question known = .ok (.vtable (some v)) after) :
    t.vtable s.context known = .ok v after ∨ t.locateVtable s.context known = .ok v after ∨
      ∃ place, t.vtableAt? s.context place known = .ok (some v) after := by
  cases question with
  | vtable =>
    obtain ⟨_, _, found, made⟩ := of_bind_ok answered
    cases made
    exact .inl found
  | locateVtable =>
    obtain ⟨_, _, found, made⟩ := of_bind_ok answered
    cases made
    exact .inr (.inl found)
  | vtableAt place =>
    obtain ⟨_, _, found, made⟩ := of_bind_ok answered
    cases made
    exact .inr (.inr ⟨place, found⟩)
  | _ => exact absurd rfl (s.askClass_givesNoVtable t (by simp) (by simp) (by simp) answered v)

/-- **Every vtable that a session gives serves classes of its hierarchy only.**  This can be seen at
    any time after it was given. -/
theorem within_of_given (grounded : s.Grounded) (all : s.context.TablesWithin s.known)
    (identified : s.context.Identified t) {question : ClassQuery}
    (given : (s.ask (.ofClass t.address question)).1 = .ok (.vtable (some v)))
    (valid : v.isValid = true) (between : List Query) :
    let later := s.after (.ofClass t.address question :: between)
    v.Within later.context later.known t := by
  intro later
  obtain ⟨still, leads⟩ := after_leads grounded (.ofClass t.address question :: between)
  -- what was learned between the answer and now
  obtain ⟨next, -⟩ := ask_leads grounded (.ofClass t.address question)
  obtain ⟨-, more⟩ := after_leads next between
  have asked := of_ask_ok given
  rw [recover_ofClass identified] at asked
  have met : s.context.Grounded (s.known.meet t) := Context.Grounded.meet grounded identified
  have there : s.context.Grounded later.known := leads.grounded_iff.mp still
  rcases of_askClass_vtable asked with kept | located | ⟨place, read⟩
  · -- the vtable was given from a cell, which is still there
    have has := more.known.vtables (TypeInfo.hasVtable_of_vtable kept)
    refine after_tablesWithin grounded all (.ofClass t.address question :: between) ?_ has valid
    rw [leads.context]
    exact identified
  · obtain ⟨-, -, within⟩ := TypeInfo.locateVtable_within identified met located
    rw [leads.context]
    exact (within _ there more.known valid).mono identified there there (.refl _) _ _
  · obtain ⟨-, -, within⟩ := TypeInfo.vtableAt?_within identified place met read
    rw [leads.context]
    exact (within _ there more.known v rfl).mono identified there there (.refl _) _ _

end Session

end ItaniumRtti
