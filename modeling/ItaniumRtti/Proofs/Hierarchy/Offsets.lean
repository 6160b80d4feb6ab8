import ItaniumRtti.Proofs.Hierarchy.Preorder
import ItaniumRtti.Proofs.Vtable.Groups

namespace ItaniumRtti

/-!
# Offsets of bases

The search for bases and their offsets goes along non-virtual edges.  It follows no edge back to a
class that it came through, and it searches no class twice at one offset.

* `BaseGraph.Placed` — a path of non-virtual edges leads to a class, and its offsets add up;
* `BaseGraph.Explores` — what a search along some edges of a class does: an edge that it does not
  follow leads to something found or closes a cycle;
* `BaseGraph.Explores.below`, `BaseGraph.Explores.cons` — how such searches are put together;
* `Context.Draws.offsetsBelow` — the search of a session is of this kind;
* `Session.baseOffsets_exact` — so it finds only what paths lead to and, without cycles, all of it.
-/

open Recover

namespace BaseGraph

/-! ### Paths -/

/-- A path of one or more non-virtual edges leads from `t` to a class, and the offsets on it add up
    to a place. -/
inductive Placed (G : BaseGraph) (t : TypeInfo) : TypeInfo → Int → Prop where
  /-- The path is one edge. -/
  | base {bases : List Base} {b : Base} : G t = .ok bases → b ∈ bases → b.isVirtual = false →
      Placed G t b.target b.offset
  /-- The path goes on with an edge. -/
  | onward {c : TypeInfo} {place : Int} {bases : List Base} {b : Base} : Placed G t c place →
      G c = .ok bases → b ∈ bases → b.isVirtual = false → Placed G t b.target (place + b.offset)

/-- The class stands at the place in an object of the class `t`: it is `t`, or a base at the end of
    a path. -/
def Stands (G : BaseGraph) (t c : TypeInfo) (place : Int) : Prop :=
  c = t ∧ place = 0 ∨ G.Placed t c place

/-- No class that can be reached from `t` can be reached from itself by one or more edges. -/
def Acyclic (G : BaseGraph) (t : TypeInfo) : Prop :=
  ∀ c, Relation.ReflTransGen G.Edge t c → ¬ Relation.TransGen G.Edge c c

variable {G : BaseGraph} {t owner : TypeInfo} {place : Int} {bases : List Base} {b : Base}

/-- A path to a class goes on to its bases. -/
theorem Stands.placed (stands : G.Stands t owner place) (known : G owner = .ok bases)
    (member : b ∈ bases) (plain : b.isVirtual = false) :
    G.Placed t b.target (place + b.offset) := by
  rcases stands with ⟨rfl, rfl⟩ | path
  · rw [Int.zero_add]
    exact .base known member plain
  · exact .onward path known member plain

/-- A base that is placed can be reached. -/
theorem Placed.reaches {c : TypeInfo} (path : G.Placed t c place) :
    Relation.TransGen G.Edge t c := by
  induction path with
  | base known member _ => exact .single (edge_of_mem known member)
  | onward _ known member _ ih => exact ih.tail (edge_of_mem known member)

/-- The type_info of each of some classes stands after those of its direct bases. -/
def descends (G : BaseGraph) (classes : List TypeInfo) : Bool :=
  classes.all fun c => ((G c).toOption.getD []).all fun b => b.target.address < c.address

/-- A hierarchy that can be listed so has no cycles. -/
theorem acyclic_of_descends {classes : List TypeInfo} (closed : G.closed classes = true)
    (descends : G.descends classes = true) (member : t ∈ classes) : G.Acyclic t := by
  intro c reached cycle
  -- addresses go down along every path, so none comes back
  have lower : ∀ d, Relation.TransGen G.Edge c d → d.address < c.address := by
    have down : ∀ d e, Relation.ReflTransGen G.Edge c d → G.Edge d e → e.address < d.address := by
      intro d e path edge
      obtain ⟨bases, known, b, base, rfl⟩ := edge
      have all := List.all_eq_true.mp descends d
        (mem_of_closed closed member (reached.trans path))
      rw [known] at all
      exact of_decide_eq_true (List.all_eq_true.mp all b base)
    intro d path
    induction path with
    | single edge => exact down c _ .refl edge
    | tail before edge ih =>
      have last := down _ _ before.to_reflTransGen edge
      omega
  exact Int.lt_irrefl _ (lower c cycle)

/-! ### Searches -/

/-- What a search along some edges of the class `owner`, which stands at `place`, makes of the
    classes and places found before. -/
structure Explores (G : BaseGraph) (owner : TypeInfo) (place : Int) (edges : List Base)
    (found later : List (TypeInfo × Int)) : Prop where
  /-- Nothing is lost. -/
  kept : ∀ p ∈ found, p ∈ later
  /-- Nothing is found twice. -/
  nodup : found.Nodup → later.Nodup
  /-- What is found is at the end of a path. -/
  sound : ∀ t, G.Stands t owner place → (∀ p ∈ found, G.Placed t p.1 p.2) →
    ∀ p ∈ later, G.Placed t p.1 p.2
  /-- The edges lead to something found, unless they close a cycle. -/
  edges : ∀ b ∈ edges, b.isVirtual = false →
    (b.target, place + b.offset) ∈ later ∨ Relation.ReflTransGen G.Edge b.target owner
  /-- So do the edges of every class that was found on the way. -/
  closed : ∀ p ∈ later, p ∉ found → ∀ bases, G p.1 = .ok bases → ∀ b ∈ bases,
    b.isVirtual = false →
    (b.target, p.2 + b.offset) ∈ later ∨ Relation.ReflTransGen G.Edge b.target p.1

namespace Explores

variable {edges rest : List Base} {found middle later : List (TypeInfo × Int)}

/-- Edges that are not followed. -/
theorem skip (allowed : ∀ b ∈ edges, b.isVirtual = false →
      (b.target, place + b.offset) ∈ found ∨ Relation.ReflTransGen G.Edge b.target owner) :
    G.Explores owner place edges found found where
  kept _ member := member
  nodup distinct := distinct
  sound _ _ all := all
  edges := allowed
  closed _ member new := absurd member new

/-- An edge that is followed: the search goes on along the edges of its target. -/
theorem below (known : G owner = .ok bases) (member : b ∈ bases) (plain : b.isVirtual = false)
    {inner : List Base} (listed : G b.target = .ok inner)
    (new : (b.target, place + b.offset) ∉ found)
    (deeper : G.Explores b.target (place + b.offset) inner
      (found ++ [(b.target, place + b.offset)]) later) :
    G.Explores owner place [b] found later where
  kept p old := deeper.kept p (List.mem_append_left _ old)
  nodup distinct := by
    apply deeper.nodup
    rw [← List.concat_eq_append, List.nodup_concat]
    exact ⟨new, distinct⟩
  sound t stands all := by
    have here := stands.placed known member plain
    exact deeper.sound t (.inr here)
      (List.forall_mem_append.mpr ⟨all, List.forall_mem_singleton.mpr here⟩)
  edges := by
    refine List.forall_mem_singleton.mpr fun _ => .inl (deeper.kept _ ?_)
    exact List.mem_append_right _ (List.mem_singleton_self _)
  closed p there other bases' known' b' member' plain' := by
    by_cases first : p = (b.target, place + b.offset)
    · -- the target itself: its edges are those that the search went on along
      subst first
      cases listed.symm.trans known'
      exact deeper.edges b' member' plain'
    · refine deeper.closed p there ?_ bases' known' b' member' plain'
      intro before
      rcases List.mem_append.mp before with old | is
      · exact other old
      · exact first (List.mem_singleton.mp is)

/-- One edge, then the others. -/
theorem cons (first : G.Explores owner place [b] found middle)
    (second : G.Explores owner place rest middle later) :
    G.Explores owner place (b :: rest) found later where
  kept p old := second.kept p (first.kept p old)
  nodup distinct := second.nodup (first.nodup distinct)
  sound t stands all := second.sound t stands (first.sound t stands all)
  edges := by
    refine List.forall_mem_cons.mpr ⟨fun plain => ?_, second.edges⟩
    exact (first.edges b (List.mem_singleton_self b) plain).imp_left (second.kept _)
  closed p there new bases' known' b' member' plain' := by
    by_cases early : p ∈ middle
    · -- found along the first edge, and nothing is lost after that
      exact (first.closed p early new bases' known' b' member' plain').imp_left (second.kept _)
    · exact second.closed p there early bases' known' b' member' plain'

/-- **A search from a class finds everything that paths lead to, if there are no cycles.** -/
theorem complete (explores : G.Explores t 0 bases [] later) (known : G t = .ok bases)
    (acyclic : G.Acyclic t) {c : TypeInfo} (path : G.Placed t c place) : (c, place) ∈ later := by
  -- by induction on the path: what leads on from something found is found, or closes a cycle
  induction path with
  | base known' member plain =>
    cases known.symm.trans known'
    rcases explores.edges _ member plain with there | back
    · rwa [Int.zero_add] at there
    · exact absurd (.head' (edge_of_mem known member) back) (acyclic t .refl)
  | @onward d place bases' b before known' member plain ih =>
    rcases explores.closed _ ih List.not_mem_nil bases' known' b member plain with there | back
    · exact there
    · have cycle := Relation.TransGen.head' (edge_of_mem known' member) back
      exact absurd cycle (acyclic d before.reaches.to_reflTransGen)

end Explores

end BaseGraph

/-! ### Searches of a session -/

namespace Context

variable {ctx : Context} {G : BaseGraph} {known : Knowledge} {t : TypeInfo}

/-- A search that does this along each of some edges does it along all of them. -/
theorem Draws.alongEdges {owner : TypeInfo} {place : Int}
    {search : List (TypeInfo × Int) → Base → Recover (List (TypeInfo × Int))} {edges : List Base}
    (along : ∀ b ∈ edges, ∀ {known : Knowledge}, ctx.Draws G known → ∀ found,
      ∃ later after, search found b known = .ok later after ∧ ctx.Draws G after ∧
        G.Explores owner place [b] found later)
    (draws : ctx.Draws G known) (found : List (TypeInfo × Int)) :
    ∃ later after, edges.foldlM search found known = .ok later after ∧ ctx.Draws G after ∧
      G.Explores owner place edges found later := by
  -- What is found along the first edge is where the search along the others starts.
  induction edges generalizing found known with
  | nil => exact ⟨found, known, rfl, draws, .skip (List.forall_mem_nil _)⟩
  | cons b rest ih =>
    obtain ⟨first, others⟩ := List.forall_mem_cons.mp along
    obtain ⟨middle, between, searched, still, explores⟩ := first draws found
    obtain ⟨later, after, finished, last, explores'⟩ := ih others still middle
    refine ⟨later, after, ?_, last, .cons explores explores'⟩
    rw [List.foldlM_cons, bind_ok searched]
    exact finished

/-- **The search below a class is such a search.**  The path holds the class and the classes that
    it was reached through; as each step makes it longer, there is fuel for every address. -/
theorem Draws.offsetsBelow (draws : ctx.Draws G known) (wellFormed : G.WellFormed t) {fuel : Nat}
    {owner : TypeInfo} (reached : Relation.ReflTransGen G.Edge t owner) (place : Int)
    {path : List TypeInfo} (classes : ∀ c ∈ path, ctx.Identified c) (nodup : path.Nodup)
    (top : owner ∈ path) (through : ∀ c ∈ path, Relation.ReflTransGen G.Edge c owner)
    (enough : ctx.image.places.length < fuel + path.length) (found : List (TypeInfo × Int)) :
    ∃ bases later after, G owner = .ok bases ∧
      Recover.offsetsBelow ctx fuel owner place (path.map (·.address)) found known =
        .ok later after ∧
      ctx.Draws G after ∧ G.Explores owner place bases found later := by
  induction fuel generalizing owner place path found known with
  | zero =>
    -- the path would hold more classes than there are addresses
    have most := length_le_places classes nodup
    omega
  | succ fuel ih =>
    obtain ⟨bases, listed⟩ := wellFormed owner reached
    obtain ⟨targets, middle, answered, still⟩ := draws.bases_of_ok (classes owner top) listed
    rw [Recover.offsetsBelow]
    simp only [bind_ok answered]
    refine ⟨bases, ?_⟩
    simp only [listed, true_and]
    refine still.alongEdges ?_ found
    intro b member known draws found
    have target := targets b member
    have edge := BaseGraph.edge_of_mem listed member
    have onPath : b.target.address ∈ path.map (·.address) ↔ b.target ∈ path := by
      simpa using target.mem_map_address_iff classes
    simp only [Bool.or_eq_true, List.contains_iff_mem, onPath]
    by_cases skipped : (b.isVirtual = true ∨ b.target ∈ path) ∨
        (b.target, place + b.offset) ∈ found
    · -- the edge is virtual, closes a cycle, or leads to something found
      rw [if_pos skipped]
      refine ⟨found, known, rfl, draws, .skip (List.forall_mem_singleton.mpr fun plain => ?_)⟩
      rcases skipped with (virtual | back) | again
      · cases virtual.symm.trans plain
      · exact .inr (through _ back)
      · exact .inl again
    · rw [if_neg skipped]
      simp only [not_or, Bool.not_eq_true] at skipped
      obtain ⟨⟨plain, fresh⟩, new⟩ := skipped
      obtain ⟨inner, later, after, listed', searched, last, deeper⟩ :=
        ih draws (reached.tail edge) (place + b.offset)
          (List.forall_mem_cons.mpr ⟨target, classes⟩) (List.nodup_cons.mpr ⟨fresh, nodup⟩)
          (List.mem_cons_self ..)
          (List.forall_mem_cons.mpr ⟨.refl, fun c member => (through c member).tail edge⟩)
          (by rw [List.length_cons]; omega) (found ++ [(b.target, place + b.offset)])
      exact ⟨later, after, searched, last, .below listed member plain listed' new deeper⟩

/-- The search from a class of a well-formed hierarchy. -/
theorem Draws.baseOffsets (draws : ctx.Draws G known) (identified : ctx.Identified t)
    (wellFormed : G.WellFormed t) :
    ∃ bases placed after, G t = .ok bases ∧ t.baseOffsets ctx known = .ok placed after ∧
      ctx.Draws G after ∧ G.Explores t 0 bases [] placed :=
  draws.offsetsBelow wellFormed .refl 0 (List.forall_mem_singleton.mpr identified)
    (List.nodup_singleton t) (List.mem_singleton_self t) (List.forall_mem_singleton.mpr .refl)
    (Nat.lt_succ_of_lt ctx.image.length_places) []

end Context

namespace Session

/-- **The offsets of bases are exact.**  If the direct bases of every class that can be reached are
    known, in cycles or not, the bases are found with their offsets, no pair twice, and each pair is
    that of a path of non-virtual edges.  If there are no cycles, the pair of every such path is
    found. -/
theorem baseOffsets_exact (image : Image) (demangle : Demangler) (limits : Limits)
    (detector : Detector) (listing : Listing) (queries : List Query) (t : TypeInfo) :
    let s := (start image demangle limits detector listing).after queries
    let ctx := s.context
    let G := ctx.graph s.known
    ctx.Identified t → G.WellFormed t →
    ∃ placed after, t.baseOffsets ctx s.known = .ok placed after ∧
      (placed.map fun p => (p.1.address, p.2)).Nodup ∧
      (∀ p ∈ placed, G.Placed t p.1 p.2) ∧
      (G.Acyclic t → ∀ c place, G.Placed t c place → (c, place) ∈ placed) := by
  intro s ctx G identified wellFormed
  have draws : ctx.Draws G s.known :=
    (after_leads (grounded_start image demangle limits detector listing) queries).1.draws
  obtain ⟨bases, placed, after, listed, answered, -, explores⟩ :=
    draws.baseOffsets identified wellFormed
  have sound : ∀ p ∈ placed, G.Placed t p.1 p.2 :=
    explores.sound t (.inl ⟨rfl, rfl⟩) (List.forall_mem_nil _)
  refine ⟨placed, after, answered, ?_, sound, ?_⟩
  · -- different classes have different addresses
    refine List.Nodup.map_on ?_ (explores.nodup List.nodup_nil)
    intro p here q there same
    obtain ⟨address, place⟩ := Prod.mk.inj same
    have first := draws.reached identified (sound p here).reaches.to_reflTransGen
    have second := draws.reached identified (sound q there).reaches.to_reflTransGen
    exact Prod.ext (first.eq_of_address second address) place
  · intro acyclic c place path
    exact explores.complete listed acyclic path

/-- The repeated base has two offsets, its own and that in the class over it, and both are found.
    The virtual base has none. -/
theorem baseOffsets_exact_sampleRepeated :
    (∃ after, TypeInfo.baseOffsets sampleRepeated.context ⟨0x400028, .general⟩
      sampleRepeated.known =
        .ok [(⟨0x400000, .simple⟩, 4), (⟨0x400010, .general⟩, 8), (⟨0x400000, .simple⟩, 12)]
          after) ∧
    ∀ c place, (sampleRepeated.context.graph sampleRepeated.known).Placed ⟨0x400028, .general⟩ c
        place ↔
      (c, place) ∈ [((⟨0x400000, .simple⟩, 4) : TypeInfo × Int), (⟨0x400010, .general⟩, 8),
        (⟨0x400000, .simple⟩, 12)] := by
  have listed : (sampleRepeated.context.graph sampleRepeated.known).closed [⟨0x400028, .general⟩,
      ⟨0x400010, .general⟩, ⟨0x400008, .simple⟩, ⟨0x400000, .simple⟩] = true := by decide +kernel
  have down : (sampleRepeated.context.graph sampleRepeated.known).descends [⟨0x400028, .general⟩,
      ⟨0x400010, .general⟩, ⟨0x400008, .simple⟩, ⟨0x400000, .simple⟩] = true := by decide +kernel
  have found : (TypeInfo.baseOffsets sampleRepeated.context ⟨0x400028, .general⟩).run'
      sampleRepeated.known =
      some [(⟨0x400000, .simple⟩, 4), (⟨0x400010, .general⟩, 8), (⟨0x400000, .simple⟩, 12)] := by
    decide +kernel
  obtain ⟨placed, after, answered, -, sound, complete⟩ :=
    baseOffsets_exact .sampleRepeated _ {} (.ofTable []) [] [] _ identified_sampleRepeated
      (BaseGraph.wellFormed_of_closed listed (List.mem_cons_self ..))
  obtain ⟨_, again⟩ := run'_eq_some_iff.mp found
  cases answered.symm.trans again
  -- Each type_info stands after those of its bases, so no path comes back.
  have acyclic := BaseGraph.acyclic_of_descends listed down (List.mem_cons_self ..)
  exact ⟨⟨after, answered⟩, fun c place => ⟨complete acyclic c place, sound (c, place)⟩⟩

end Session

end ItaniumRtti
