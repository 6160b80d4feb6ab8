import ItaniumRtti.Proofs.Hierarchy.Preorder

namespace ItaniumRtti

/-!
# Virtual bases

A walk over the base graph notes the target of every virtual edge that it meets, whether or not it
follows the edge.

* `BaseGraph.VirtualEdge` — a class is a direct virtual base of another;
* `BaseGraph.Walk.mem_met_iff` — a walk meets the edges of all classes that it enters;
* `firstOccurrences_append` and the lemmas after it — what the first occurrences of a list are;
* `Session.virtualBases_exact` — the virtual bases of a class are the targets of virtual edges, in
  the order in which the walk meets these.
-/

open Recover

namespace BaseGraph

variable {G : BaseGraph}

/-- The class `d` is a direct virtual base of `c`. -/
def VirtualEdge (G : BaseGraph) (c d : TypeInfo) : Prop :=
  ∃ bases, G c = .ok bases ∧ ∃ b ∈ bases, b.isVirtual = true ∧ b.target = d

theorem VirtualEdge.edge {c d : TypeInfo} (virtual : G.VirtualEdge c d) : G.Edge c d := by
  obtain ⟨bases, known, b, member, -, is⟩ := virtual
  exact ⟨bases, known, b, member, is⟩

namespace Walk

variable {seen entered : List TypeInfo} {edges met : List Base}

/-- A walk meets the edges that it was given and the edges of the classes that it enters. -/
theorem mem_met_iff (walk : G.Walk seen edges met entered) {e : Base} :
    e ∈ met ↔ e ∈ edges ∨ ∃ c ∈ entered, ∃ bases, G c = .ok bases ∧ e ∈ bases := by
  induction walk with
  | done => simp
  | old _ _ ih => simp only [List.mem_cons, ih, or_assoc]
  | @enter _ enteredBelow enteredAfter first rest bases _ _ _ listed _ _ ihBelow ihAfter =>
    rw [List.mem_cons, List.mem_append, ihBelow, ihAfter, List.mem_cons]
    constructor
    · rintro (rfl | (base | ⟨c, member, own⟩) | (later | ⟨c, member, own⟩))
      · exact .inl (.inl rfl)
      · exact .inr ⟨first.target, List.mem_cons_self .., bases, listed, base⟩
      · exact .inr ⟨c, List.mem_cons_of_mem _ (List.mem_append_left _ member), own⟩
      · exact .inl (.inr later)
      · exact .inr ⟨c, List.mem_cons_of_mem _ (List.mem_append_right _ member), own⟩
    · rintro ((rfl | later) | ⟨c, member, own⟩)
      · exact .inl rfl
      · exact .inr (.inr (.inl later))
      -- the edge leaves the class entered first, or one entered below it or after it
      rcases List.mem_cons.mp member with rfl | member
      · obtain ⟨bases', listed', base⟩ := own
        cases listed.symm.trans listed'
        exact .inr (.inl (.inl base))
      · rcases List.mem_append.mp member with inner | outer
        · exact .inr (.inl (.inr ⟨c, inner, own⟩))
        · exact .inr (.inr (.inr ⟨c, outer, own⟩))

/-- The walk from a class meets exactly the edges of the classes that can be reached. -/
theorem mem_met_iff_reaches {t : TypeInfo} {bases : List Base} (listed : G t = .ok bases)
    (walk : G.Walk [t] bases met entered) {e : Base} :
    e ∈ met ↔ ∃ c, Relation.ReflTransGen G.Edge t c ∧ ∃ bases, G c = .ok bases ∧ e ∈ bases := by
  rw [walk.mem_met_iff]
  constructor
  · rintro (own | ⟨c, member, base⟩)
    · exact ⟨t, .refl, bases, listed, own⟩
    · exact ⟨c, ((walk.mem_entered_iff listed).mp member).1.to_reflTransGen, base⟩
  · rintro ⟨c, path, bases', known, base⟩
    rcases List.mem_cons.mp (walk.mem_of_reaches listed path) with rfl | member
    · cases listed.symm.trans known
      exact .inl base
    · exact .inr ⟨c, member, bases', known, base⟩

end Walk

end BaseGraph

/-! ### First occurrences -/

/-- The first occurrences of a list begin with those of its front. -/
theorem firstOccurrences_append (front rest : List TypeInfo) :
    firstOccurrences front <+: firstOccurrences (front ++ rest) := by
  -- What occurred before stays at the front, whatever comes after it.
  have longer : ∀ (classes seen : List TypeInfo), seen <+: firstOccurrencesAfter seen classes := by
    intro classes
    induction classes with
    | nil => exact fun seen => List.prefix_rfl
    | cons c rest ih =>
      intro seen
      rw [firstOccurrencesAfter_cons]
      refine List.IsPrefix.trans ?_ (ih _)
      split
      · exact List.prefix_rfl
      · exact List.prefix_append seen [c]
  have split : firstOccurrences (front ++ rest) =
      firstOccurrencesAfter (firstOccurrences front) rest :=
    firstOccurrencesAfter_append [] front rest
  rw [split]
  exact longer rest _

/-- No address occurs twice among first occurrences. -/
theorem nodup_firstOccurrences (classes : List TypeInfo) :
    ((firstOccurrences classes).map (·.address)).Nodup := by
  -- the fold carries the classes seen before, so the induction is about any of them
  have stays : ∀ (classes seen : List TypeInfo), (seen.map (·.address)).Nodup →
      ((firstOccurrencesAfter seen classes).map (·.address)).Nodup := by
    intro classes
    induction classes with
    | nil => exact fun seen nodup => nodup
    | cons c rest ih =>
      intro seen nodup
      rw [firstOccurrencesAfter_cons]
      apply ih
      split
      · exact nodup
      · next new =>
        rw [List.map_append, List.map_singleton, ← List.concat_eq_append, List.nodup_concat]
        refine ⟨?_, nodup⟩
        intro old
        obtain ⟨d, member, same⟩ := List.mem_map.mp old
        exact new (List.any_eq_true.mpr ⟨d, member, beq_iff_eq.mpr same⟩)
  exact stays classes [] List.nodup_nil

namespace Context

variable {ctx : Context} {G : BaseGraph} {known : Knowledge} {t : TypeInfo}

/-- Of classes that recognition finds, none is lost among first occurrences. -/
theorem mem_firstOccurrences_iff {classes : List TypeInfo}
    (all : ∀ c ∈ classes, ctx.Identified c) {c : TypeInfo} :
    c ∈ firstOccurrences classes ↔ c ∈ classes := by
  refine ⟨mem_of_mem_firstOccurrences, ?_⟩
  intro member
  obtain ⟨d, kept, same⟩ := exists_mem_firstOccurrences member
  have listed := mem_of_mem_firstOccurrences kept
  rw [← (all d listed).eq_of_address (all c member) same]
  exact kept

/-- The virtual bases among edges to recognised classes. -/
theorem mem_virtualsIn_iff {edges : List Base} (all : ∀ e ∈ edges, ctx.Identified e.target)
    {c : TypeInfo} : c ∈ virtualsIn edges ↔ ∃ e ∈ edges, e.isVirtual = true ∧ e.target = c := by
  have targets : ∀ d ∈ (edges.filter (·.isVirtual)).map (·.target), ctx.Identified d := by
    intro d member
    obtain ⟨e, kept, rfl⟩ := List.mem_map.mp member
    exact all e (List.mem_of_mem_filter kept)
  rw [virtualsIn, mem_firstOccurrences_iff targets]
  simp only [List.mem_map, List.mem_filter, and_assoc]

/-- What edges at the front of a list contribute stands at the front of the virtual bases. -/
theorem virtualsIn_of_front {front edges : List Base} (begins : front <+: edges) :
    virtualsIn front <+: virtualsIn edges := by
  obtain ⟨rest, rfl⟩ := begins
  rw [virtualsIn, virtualsIn, List.filter_append, List.map_append]
  exact firstOccurrences_append _ _

/-! ### Walks that end -/

/-- In a well-formed hierarchy the walk from a class ends. -/
theorem Draws.walk (draws : ctx.Draws G known) (identified : ctx.Identified t)
    (wellFormed : G.WellFormed t) :
    ∃ bases met entered after, G t = .ok bases ∧ G.Walk [t] bases met entered ∧
      t.edges ctx known = .ok met after ∧ ctx.Draws G after := by
  rcases draws.edges identified with
    ⟨bases, met, entered, after, listed, found, still, walk⟩ | ⟨c, fault, after, -, failed, path⟩
  · exact ⟨bases, met, entered, after, listed, walk, found, still⟩
  · obtain ⟨bases, known⟩ := wellFormed c path
    cases failed.symm.trans known

/-- The edges that it meets lead to classes. -/
theorem Draws.target_of_met (draws : ctx.Draws G known) (identified : ctx.Identified t)
    {bases met : List Base} {entered : List TypeInfo} (listed : G t = .ok bases)
    (walk : G.Walk [t] bases met entered) : ∀ e ∈ met, ctx.Identified e.target := by
  intro e member
  obtain ⟨c, path, bases', known, base⟩ := (walk.mem_met_iff_reaches listed).mp member
  exact draws.target (draws.reached identified path) known e base

end Context

namespace Session

/-- **The virtual bases of a class are exact, in cycles too.**  If the direct bases of every class
    that can be reached are known, the virtual bases are the targets of the virtual edges that leave
    the class or another class that can be reached, each once.  Those that the recursive depth-first
    walk has met, however far it has come, stand at the front.  All of them are ancestors, the class
    itself apart. -/
theorem virtualBases_exact (image : Image) (demangle : Demangler) (limits : Limits)
    (detector : Detector) (listing : Listing) (queries : List Query) (t : TypeInfo) :
    let s := (start image demangle limits detector listing).after queries
    let ctx := s.context
    let G := ctx.graph s.known
    ctx.Identified t → G.WellFormed t →
    ∃ bases met entered virtuals after,
      G t = .ok bases ∧ G.Walk [t] bases met entered ∧
      t.virtualBases ctx s.known = .ok virtuals after ∧
      (virtuals.map (·.address)).Nodup ∧
      (∀ c, c ∈ virtuals ↔ ∃ d, Relation.ReflTransGen G.Edge t d ∧ G.VirtualEdge d c) ∧
      (∀ front, front <+: met → ∃ first, first <+: virtuals ∧
        ∀ c, c ∈ first ↔ ∃ e ∈ front, e.isVirtual = true ∧ e.target = c) ∧
      ∃ ancestors after', t.ancestors ctx s.known = .ok ancestors after' ∧
        ∀ c ∈ virtuals, c ∈ t :: ancestors := by
  intro s ctx G identified wellFormed
  have draws : ctx.Draws G s.known :=
    (after_leads (grounded_start image demangle limits detector listing) queries).1.draws
  obtain ⟨bases, met, entered, after, listed, walk, found, -⟩ := draws.walk identified wellFormed
  have targets := draws.target_of_met identified listed walk
  have members : ∀ c, c ∈ Context.virtualsIn met ↔
      ∃ d, Relation.ReflTransGen G.Edge t d ∧ G.VirtualEdge d c := by
    intro c
    rw [Context.mem_virtualsIn_iff targets]
    constructor
    · rintro ⟨e, member, virtual, rfl⟩
      obtain ⟨d, path, bases', known, base⟩ := (walk.mem_met_iff_reaches listed).mp member
      exact ⟨d, path, bases', known, e, base, virtual, rfl⟩
    · rintro ⟨d, path, bases', known, e, base, virtual, rfl⟩
      exact ⟨e, (walk.mem_met_iff_reaches listed).mpr ⟨d, path, bases', known, base⟩, virtual, rfl⟩
  obtain ⟨last, collected⟩ := draws.grounded.virtualBases_of_edges identified found
  refine ⟨bases, met, entered, Context.virtualsIn met, last, listed, walk, collected,
    nodup_firstOccurrences _, members, ?_, ?_⟩
  · intro front begins
    refine ⟨Context.virtualsIn front, Context.virtualsIn_of_front begins, fun c => ?_⟩
    exact Context.mem_virtualsIn_iff fun e member => targets e (begins.subset member)
  · -- a virtual base can be reached, and so it was entered or is the class itself
    rcases draws.ancestors identified with
      ⟨bases', met', entered', after', listed', answered, -, walk'⟩ | ⟨c, fault, _, -, failed, path⟩
    · refine ⟨entered', after', answered, fun c member => ?_⟩
      obtain ⟨d, path, virtual⟩ := (members c).mp member
      exact walk'.mem_of_reaches listed' (path.tail virtual.edge)
    · obtain ⟨bases', known⟩ := wellFormed c path
      cases failed.symm.trans known

end Session

/-- The data of a program with virtual edges: the type_info of a class without bases at the start,
    that of a class with it and with the last class as virtual bases after 8 bytes, and after 40
    bytes that of the last class, which has the second one as a plain and as a virtual base. -/
def Block.sampleVirtuals : Block where
  name := ".data"
  start := 0x400000
  data := ⟨(([0x500008, 0,
      0x500108, 0, 0, 2, 0x400000, 0xfffff403, 0x400028, 0xfffff003,
      0x500108, 0, 0, 2, 0x400008, 0x2, 0x400008, 0xffffec03] :
      List Nat).flatMap fun n => (littleBytes 4 n).reverse).toArray⟩
  size := 72

/-- A program with virtual edges. -/
def Image.sampleVirtuals : Image :=
  { Image.sampleCycle with
    blocks := [.sampleVirtuals]
    ordered := by decide }

namespace Session

/-- A session about that program. -/
def sampleVirtuals : Session :=
  start .sampleVirtuals (fun _ => none) {} (.ofTable []) []

/-- The last class is a virtual base of its own.  The second class is listed after the others: the
    walk enters it first, but along a plain edge. -/
theorem virtualBases_exact_sampleVirtuals :
    let G := sampleVirtuals.context.graph sampleVirtuals.known
    (∃ after, TypeInfo.virtualBases sampleVirtuals.context ⟨0x400028, .general⟩
      sampleVirtuals.known =
        .ok [⟨0x400000, .simple⟩, ⟨0x400028, .general⟩, ⟨0x400008, .general⟩] after) ∧
    (∃ d, Relation.ReflTransGen G.Edge ⟨0x400028, .general⟩ d ∧
      G.VirtualEdge d ⟨0x400028, .general⟩) ∧
    ∃ bases met entered, G.Walk [⟨0x400028, .general⟩] bases met entered ∧
      ∀ front, front <+: met → ∃ first,
        first <+: [⟨0x400000, .simple⟩, ⟨0x400028, .general⟩, ⟨0x400008, .general⟩] ∧
        ∀ c, c ∈ first ↔ ∃ e ∈ front, e.isVirtual = true ∧ e.target = c := by
  intro G
  have identified : sampleVirtuals.context.Identified ⟨0x400028, .general⟩ := by
    unfold Context.Identified
    decide +kernel
  have closed : G.closed [⟨0x400028, .general⟩, ⟨0x400008, .general⟩, ⟨0x400000, .simple⟩] =
      true := by decide +kernel
  have found : (TypeInfo.virtualBases sampleVirtuals.context ⟨0x400028, .general⟩).run'
      sampleVirtuals.known =
      some [⟨0x400000, .simple⟩, ⟨0x400028, .general⟩, ⟨0x400008, .general⟩] := by decide +kernel
  obtain ⟨bases, met, entered, virtuals, after, -, walk, answered, -, members, order, -⟩ :=
    virtualBases_exact .sampleVirtuals (fun _ => none) {} (.ofTable []) [] [] _ identified
      (BaseGraph.wellFormed_of_closed closed (List.mem_cons_self ..))
  obtain ⟨_, again⟩ := run'_eq_some_iff.mp found
  cases answered.symm.trans again
  refine ⟨⟨after, answered⟩, (members _).mp ?_, bases, met, entered, walk, order⟩
  exact List.mem_cons_of_mem _ (List.mem_cons_self ..)

end Session

end ItaniumRtti
