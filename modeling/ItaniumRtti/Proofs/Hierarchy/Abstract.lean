import ItaniumRtti.Proofs.Hierarchy.Preorder
import ItaniumRtti.Proofs.StoreIndex

namespace ItaniumRtti

/-!
# Abstract classes

A class without a vtable inherits the functions of its direct bases.  Whether a class is abstract is
found by a search through such classes that enters no class twice.

* `Context.Inherits`, `Context.HasPure` — the classes that the search goes on from, and those that
  end it;
* `Context.Obstructs` — what may stop the question for a vtable in a well-formed hierarchy;
* `Context.Judges` — how a search for a pure slot ends;
* `Context.Judges.skip`, `Context.Judges.enter` — what one step of it adds;
* `Context.Draws.anyAbstract` — the search of a session ends in this way;
* `Session.isAbstract_exact` — so a class is abstract if and only if a pure slot is inherited.
-/

open Recover

namespace Context

variable {ctx : Context} {G : BaseGraph} {known : Knowledge} {t c : TypeInfo}

/-! ### Vtables -/

/-- The vtable of the class is found to be none. -/
def LacksVtable (ctx : Context) (known : Knowledge) (c : TypeInfo) : Prop :=
  ∃ v, (c.vtable ctx).answer known = .ok v ∧ v.isValid = false

/-- A vtable of the class is found, and one of its slots is pure. -/
def HasPure (ctx : Context) (known : Knowledge) (c : TypeInfo) : Prop :=
  ∃ v, (c.vtable ctx).answer known = .ok v ∧ v.isValid = true ∧ v.hasPure = true

/-- The class has no vtable of its own, and `d` is a direct base. -/
def Inherits (ctx : Context) (G : BaseGraph) (known : Knowledge) (c d : TypeInfo) : Prop :=
  ctx.LacksVtable known c ∧ G.Edge c d

section

variable {v : Vtable} (has : known.HasVtable c.address v)
include has

/-- A vtable that is kept is the answer. -/
theorem answer_of_hasVtable : (c.vtable ctx).answer known = .ok v :=
  answer_of_ok (TypeInfo.vtable_of_hasVtable has)

/-- So whether there is none is read off what is kept. -/
theorem lacksVtable_iff : ctx.LacksVtable known c ↔ v.isValid = false := by
  simp [LacksVtable, answer_of_hasVtable has]

/-- And so is whether it has a pure slot. -/
theorem hasPure_iff : ctx.HasPure known c ↔ v.isValid = true ∧ v.hasPure = true := by
  simp [HasPure, answer_of_hasVtable has]

end

/-- What may stop the question for the vtable of a class: a wish to stop, an unknown byte order,
    limits of the wrong type, or an address of the class that no pointer can hold. -/
inductive Obstructs (ctx : Context) (c : TypeInfo) : Fault → Prop where
  | cancelled : ctx.cancelled = true → Obstructs ctx c .cancelled
  | byteOrder : ¬ ctx.image.order.Known → Obstructs ctx c .byteOrder
  | unfitLimit : ¬ ctx.limits.Fit → Obstructs ctx c .unfitLimit
  | targetRange : ctx.image.width.span ≤ c.address → Obstructs ctx c .targetRange

/-- These faults cover all that reading words can meet. -/
theorem tolerates_obstructs (ctx : Context) (c : TypeInfo) : ctx.Tolerates (ctx.Obstructs c) where
  cancelled := .cancelled
  byteOrder := .byteOrder
  unfitLimit := .unfitLimit

/-- They also cover the search for references to the class. -/
theorem searchable_obstructs (ctx : Context) (c : TypeInfo) :
    ctx.Searchable (ctx.Obstructs c) c.address := by
  by_cases fits : c.address < ctx.image.width.span
  · exact .inr fits
  · exact .inl (.targetRange (by omega))

/-- **In a well-formed hierarchy the question for a vtable is answered,** unless one of these stops
    it, and the answer is kept. -/
theorem Draws.vtable (draws : ctx.Draws G known) (wellFormed : G.WellFormed t)
    (identified : ctx.Identified c) (path : Relation.ReflTransGen G.Edge t c) :
    (∃ v after, c.vtable ctx known = .ok v after ∧ ctx.Draws G after ∧ known.Grows after ∧
      after.HasVtable c.address v) ∨
    ∃ fault after, c.vtable ctx known = .error fault after ∧ ctx.Obstructs c fault := by
  have alike : Alike (.within (ctx.Draws G) (ctx.Obstructs c)) _ (c.vtable ctx) (c.vtable ctx) :=
    wellFormed.vtableWithin (ctx.upholds_draws G).toUpholdsTables (fun draws => draws)
      (ctx.tolerates_obstructs c) identified path (ctx.searchable_obstructs c)
  -- That the graph stays and that knowledge grows are two invariants of the same run.
  have grows : Keeps (fun k => ctx.Grounded k ∧ known.Grows k) _ (c.vtable ctx) :=
    (ctx.upholds_grows known).consulting.vtable identified
  rcases (alike known known ⟨rfl, draws⟩).cases with
    ⟨v, after, _, answered, -, -, -, still⟩ | ⟨fault, after, _, stopped, -, obstructs, -⟩
  · obtain ⟨-, -, more⟩ := grows.of_ok ⟨draws.grounded, .refl known⟩ answered
    exact .inl ⟨v, after, answered, still, more, TypeInfo.hasVtable_of_vtable answered⟩
  · exact .inr ⟨fault, after, stopped, obstructs⟩

/-- Questions for direct bases let knowledge only grow. -/
theorem Draws.grows_of_bases (draws : ctx.Draws G known) (identified : ctx.Identified c)
    {bases : List Base} {after : Knowledge} (answered : c.bases ctx known = .ok bases after) :
    known.Grows after := by
  have grows : Keeps (fun k => ctx.Grounded k ∧ known.Grows k) _ (c.bases ctx) :=
    (ctx.upholds_grows known).locating.bases identified
  exact (grows.of_ok ⟨draws.grounded, .refl known⟩ answered).2.2

/-! ### Searches for a pure slot -/

/-- How a search for a pure slot ends that begins at the classes `pending` and enters none of the
    classes `seen`.  All of them can be reached from `t`. -/
inductive Judges (ctx : Context) (G : BaseGraph) (t : TypeInfo) (known : Knowledge)
    (seen pending : List TypeInfo) : EStateM.Result Fault Knowledge Bool → Prop where
  /-- A pure slot is inherited by one of the pending classes. -/
  | found {after : Knowledge} {c d : TypeInfo} : known.Grows after → c ∈ pending →
      Relation.ReflTransGen (ctx.Inherits G after) c d → ctx.HasPure after d →
      Judges ctx G t known seen pending (.ok true after)
  /-- Some classes were entered, none with a pure slot, and nothing is inherited from others but
      from those seen before. -/
  | exhausted {after : Knowledge} (more : List TypeInfo) : known.Grows after →
      (∀ c ∈ pending, c ∈ seen ∨ c ∈ more) → (∀ c ∈ more, ¬ ctx.HasPure after c) →
      (∀ c ∈ more, ∀ d, ctx.Inherits G after c d → d ∈ seen ∨ d ∈ more) →
      Judges ctx G t known seen pending (.ok false after)
  /-- The question for a vtable was stopped. -/
  | stopped {fault : Fault} {after : Knowledge} {c : TypeInfo} :
      Relation.ReflTransGen G.Edge t c → ctx.Obstructs c fault →
      Judges ctx G t known seen pending (.error fault after)

namespace Judges

variable {seen old rest : List TypeInfo} {middle : Knowledge} {v : Vtable}
  {result : EStateM.Result Fault Knowledge Bool}

/-- Classes seen before add nothing. -/
theorem skip (entered : ∀ c ∈ old, c ∈ seen) (judges : ctx.Judges G t known seen rest result) :
    ctx.Judges G t known seen (old ++ rest) result := by
  cases judges with
  | found grows member path pure => exact .found grows (List.mem_append_right _ member) path pure
  | exhausted more grows all none closed =>
    refine .exhausted more grows ?_ none closed
    exact List.forall_mem_append.mpr ⟨fun c member => .inl (entered c member), all⟩
  | stopped path obstructs => exact .stopped path obstructs

/-- A class is entered that has no pure slot: the search goes on from the other pending classes and
    from all that it inherits from. -/
theorem enter (grows : known.Grows middle) (has : middle.HasVtable c.address v)
    (plain : ¬ (v.isValid = true ∧ v.hasPure = true)) (below : List TypeInfo)
    (edges : ∀ d, d ∈ below ↔ v.isValid = false ∧ G.Edge c d)
    (judges : ctx.Judges G t middle (c :: seen) (below ++ rest) result) :
    ctx.Judges G t known seen (c :: rest) result := by
  cases judges with
  | @found after d e later member path pure =>
    rcases List.mem_append.mp member with base | waiting
    · -- the pure slot is inherited through the class
      obtain ⟨lacks, edge⟩ := (edges d).mp base
      have inherits : ctx.Inherits G after c d :=
        ⟨(lacksVtable_iff (later.vtables has)).mpr lacks, edge⟩
      exact .found (grows.trans later) (List.mem_cons_self ..) (.head inherits path) pure
    · exact .found (grows.trans later) (List.mem_cons_of_mem c waiting) path pure
  | @exhausted after more later all none closed =>
    -- what was seen or entered after the class was seen before it, entered, or the class itself
    have shift : ∀ d, d ∈ c :: seen ∨ d ∈ more → d ∈ seen ∨ d ∈ c :: more := by
      simp only [List.mem_cons]
      tauto
    obtain ⟨bases, waiting⟩ := List.forall_mem_append.mp all
    refine .exhausted (c :: more) (grows.trans later) ?_ ?_ ?_
    · exact List.forall_mem_cons.mpr
        ⟨.inr (List.mem_cons_self ..), fun d member => shift d (waiting d member)⟩
    · refine List.forall_mem_cons.mpr ⟨?_, none⟩
      rwa [hasPure_iff (later.vtables has)]
    · refine List.forall_mem_cons.mpr
        ⟨fun d inherits => shift d (bases d ?_),
          fun d member e inherits => shift e (closed d member e inherits)⟩
      obtain ⟨lacks, edge⟩ := inherits
      exact (edges d).mpr ⟨(lacksVtable_iff (later.vtables has)).mp lacks, edge⟩
  | stopped path obstructs => exact .stopped path obstructs

/-- **A search from one class finds a pure slot if and only if one is inherited.** -/
theorem iff_inherits (judges : ctx.Judges G t known [] [c] result) {answer : Bool}
    {after : Knowledge} (answered : result = .ok answer after) :
    answer = true ↔
      ∃ d, Relation.ReflTransGen (ctx.Inherits G after) c d ∧ ctx.HasPure after d := by
  cases judges with
  | found _ member path pure =>
    cases answered
    cases List.mem_singleton.mp member
    exact iff_of_true rfl ⟨_, path, pure⟩
  | exhausted more _ all none closed =>
    cases answered
    refine iff_of_false Bool.false_ne_true ?_
    rintro ⟨d, path, pure⟩
    -- the path stays inside the classes that were entered
    have inside : d ∈ more := by
      clear pure
      induction path with
      | refl => exact (all c (List.mem_singleton_self c)).resolve_left List.not_mem_nil
      | tail _ inherits ih => exact (closed _ ih _ inherits).resolve_left List.not_mem_nil
    exact none d inside pure
  | stopped _ _ => cases answered

end Judges

end Context

/-! ### The search of a session -/

/-- What a step of the search does: it ends if all pending classes have been entered, and otherwise
    enters the first other one. -/
theorem Recover.anyAbstract_step (ctx : Context) (fuel : Nat) (seen : List Int)
    (pending : List TypeInfo) :
    (anyAbstract ctx (fuel + 1) seen pending = pure false ∧ ∀ c ∈ pending, c.address ∈ seen) ∨
    ∃ old c rest, pending = old ++ c :: rest ∧ (∀ d ∈ old, d.address ∈ seen) ∧
      c.address ∉ seen ∧
      anyAbstract ctx (fuel + 1) seen pending = (do
        let v ← c.vtable ctx
        if v.isValid then
          if v.hasPure then return true
          anyAbstract ctx fuel (c.address :: seen) rest
        else
          let bases ← c.bases ctx
          anyAbstract ctx fuel (c.address :: seen) (bases.map (·.target) ++ rest)) := by
  rw [anyAbstract]
  -- The pending classes are cut at the first that has not been entered.
  rcases dropWhile_cases (fun c : TypeInfo => seen.contains c.address) pending with
    ⟨none, all⟩ | ⟨c, rest, split, cut, old, new⟩
  · simp only [List.contains_iff_mem] at all
    exact .inl ⟨by rw [none], all⟩
  · simp only [List.contains_iff_mem] at old
    refine .inr ⟨_, c, rest, split, old, fun entered => ?_, by rw [cut]⟩
    exact Bool.false_ne_true (new.symm.trans (List.contains_iff_mem.mpr entered))

namespace Context

variable {ctx : Context} {G : BaseGraph} {known : Knowledge} {t : TypeInfo}

/-- **The search of a session is such a search.**  Each step enters a class, so there is fuel for
    every address that is not entered yet. -/
theorem Draws.anyAbstract (draws : ctx.Draws G known) (identified : ctx.Identified t)
    (wellFormed : G.WellFormed t) {fuel : Nat} {seen pending : List TypeInfo}
    (entered : ∀ c ∈ seen, ctx.Identified c) (nodup : seen.Nodup)
    (reached : ∀ c ∈ pending, Relation.ReflTransGen G.Edge t c)
    (enough : ctx.image.places.length < fuel + seen.length) :
    ctx.Judges G t known seen pending
      (Recover.anyAbstract ctx fuel (seen.map (·.address)) pending known) := by
  induction fuel generalizing seen pending known with
  | zero =>
    -- more classes would have been entered than there are addresses
    have most := length_le_places entered nodup
    omega
  | succ fuel ih =>
    have classes : ∀ c ∈ pending, ctx.Identified c :=
      fun c member => draws.reached identified (reached c member)
    have isOld : ∀ c ∈ pending, (c.address ∈ seen.map (·.address) ↔ c ∈ seen) := by
      intro c member
      simpa using (classes c member).mem_map_address_iff entered
    rcases anyAbstract_step ctx fuel (seen.map (·.address)) pending with
      ⟨ends, all⟩ | ⟨old, c, rest, rfl, all, new, step⟩
    · rw [ends]
      refine .exhausted [] (.refl known) ?_ (List.forall_mem_nil _) (List.forall_mem_nil _)
      exact fun c member => .inl ((isOld c member).mp (all c member))
    rw [step]
    obtain ⟨before, ahead⟩ := List.forall_mem_append.mp isOld
    obtain ⟨here, -⟩ := List.forall_mem_cons.mp ahead
    rw [here] at new
    obtain ⟨-, reachedAhead⟩ := List.forall_mem_append.mp reached
    obtain ⟨path, waiting⟩ := List.forall_mem_cons.mp reachedAhead
    have isClass : ctx.Identified c := draws.reached identified path
    have enteredNow : ∀ d ∈ c :: seen, ctx.Identified d :=
      List.forall_mem_cons.mpr ⟨isClass, entered⟩
    have enoughNow : ctx.image.places.length < fuel + (c :: seen).length := by
      rw [List.length_cons]
      omega
    have nodupNow : (c :: seen).Nodup := List.nodup_cons.mpr ⟨new, nodup⟩
    refine .skip (fun d member => (before d member).mp (all d member)) ?_
    rcases draws.vtable wellFormed isClass path with
      ⟨v, middle, answered, still, grows, has⟩ | ⟨fault, after, stopped, obstructs⟩
    swap
    · rw [bind_error stopped]
      exact .stopped path obstructs
    rw [bind_ok answered]
    by_cases valid : v.isValid = true
    · rw [if_pos valid]
      by_cases pure : v.hasPure = true
      · rw [if_pos pure]
        exact .found grows (List.mem_cons_self ..) .refl ((hasPure_iff has).mpr ⟨valid, pure⟩)
      · -- nothing is inherited, since the class has functions of its own
        rw [if_neg pure]
        have deeper := ih still enteredNow nodupNow waiting enoughNow
        refine .enter grows has (fun both => pure both.2) [] ?_ deeper
        simp [valid]
    · -- the direct bases come before the classes that are pending
      rw [if_neg valid]
      obtain ⟨bases, listed⟩ := wellFormed c path
      obtain ⟨-, last, found, drawn⟩ := still.bases_of_ok isClass listed
      have more := still.grows_of_bases isClass found
      rw [bind_ok found]
      have below : ∀ d ∈ bases.map (·.target), Relation.ReflTransGen G.Edge t d :=
        List.forall_mem_map.mpr fun b member =>
          path.tail (BaseGraph.edge_of_mem listed member)
      have deeper := ih drawn enteredNow nodupNow
        (List.forall_mem_append.mpr ⟨below, waiting⟩) enoughNow
      refine .enter (grows.trans more) (more.vtables has) (fun both => valid both.1) _ ?_ deeper
      intro d
      rw [Bool.not_eq_true] at valid
      simp only [valid, true_and, BaseGraph.Edge, List.mem_map, listed]
      simp

end Context

namespace Session

/-- **A class is abstract if and only if a pure slot is inherited.**  If the direct bases of every
    class that can be reached are known, in cycles or not, the question is answered, and with yes if
    and only if a path leads through classes without a vtable to a class with a pure slot.  Nothing
    stops it but what stops the question for the vtable of a class that can be reached. -/
theorem isAbstract_exact (image : Image) (demangle : Demangler) (limits : Limits)
    (detector : Detector) (listing : Listing) (queries : List Query) (t : TypeInfo) :
    let s := (start image demangle limits detector listing).after queries
    let ctx := s.context
    let G := ctx.graph s.known
    ctx.Identified t → G.WellFormed t →
    (∃ answer after, t.isAbstract ctx s.known = .ok answer after ∧
      (answer = true ↔
        ∃ c, Relation.ReflTransGen (ctx.Inherits G after) t c ∧ ctx.HasPure after c)) ∨
    ∃ c fault after, t.isAbstract ctx s.known = .error fault after ∧
      Relation.ReflTransGen G.Edge t c ∧ ctx.Obstructs c fault := by
  intro s ctx G identified wellFormed
  have draws : ctx.Draws G s.known :=
    (after_leads (grounded_start image demangle limits detector listing) queries).1.draws
  -- At the start no class has been entered, and there is fuel for as many as the image has places.
  have judges : ctx.Judges G t s.known [] [t] (t.isAbstract ctx s.known) :=
    draws.anyAbstract identified wellFormed (List.forall_mem_nil _) List.nodup_nil
      (List.forall_mem_singleton.mpr .refl) (Nat.lt_succ_of_lt ctx.image.length_places)
  cases asked : t.isAbstract ctx s.known with
  | ok answer after => exact .inl ⟨answer, after, rfl, judges.iff_inherits asked⟩
  | error fault after =>
    rw [asked] at judges
    cases judges with
    | stopped path obstructs => exact .inr ⟨_, fault, after, rfl, path, obstructs⟩

end Session

/-- The data of a program with two classes that derive from each other, the second also from a class
    with a pure function: the type_infos of the two at the start and after 24 bytes, that of the
    third after 56, and its vtable after 64. -/
def Block.sampleInherited : Block where
  name := ".data"
  start := 0x400000
  data := ⟨(([0x500108, 0, 0, 1, 0x400018, 2,
      0x500108, 0, 0, 2, 0x400000, 2, 0x400038, 0x402,
      0x500008, 0,
      0, 0x400038, 0x60000c] : List Nat).flatMap (littleBytes 4)).toArray⟩
  size := 76

/-- A program with classes that inherit a pure function. -/
def Image.sampleInherited : Image where
  width := .narrow
  order := .little
  arch := "i386"
  abi := none
  blocks := [.sampleInherited, .sampleCode]
  symbols := [{ name := "_ZTVN10__cxxabiv117__class_type_infoE", address := 0x500000 },
    { name := "_ZTVN10__cxxabiv121__vmi_class_type_infoE", address := 0x500100 },
    { name := "__cxa_pure_virtual", address := 0x60000c, isFunction := true }]
  relocations := ∅
  ordered := by decide

namespace Session

/-- A session about that program. -/
def sampleInherited : Session :=
  start .sampleInherited (fun _ => none) {} (.ofTable []) []

/-- The first class inherits the pure function, though the search comes back to it before it comes
    to the third class. -/
theorem isAbstract_exact_sampleInherited :
    ∃ after, TypeInfo.isAbstract sampleInherited.context ⟨0x400000, .general⟩
        sampleInherited.known = .ok true after ∧
      ∃ c, Relation.ReflTransGen (sampleInherited.context.Inherits
          (sampleInherited.context.graph sampleInherited.known) after) ⟨0x400000, .general⟩ c ∧
        sampleInherited.context.HasPure after c := by
  have identified : sampleInherited.context.Identified ⟨0x400000, .general⟩ := by
    unfold Context.Identified
    decide +kernel
  have listed : (sampleInherited.context.graph sampleInherited.known).closed
      [⟨0x400000, .general⟩, ⟨0x400018, .general⟩, ⟨0x400038, .simple⟩] = true := by decide +kernel
  have found : (TypeInfo.isAbstract sampleInherited.context ⟨0x400000, .general⟩).run'
      sampleInherited.known = some true := by decide +kernel
  obtain ⟨after, asked⟩ := run'_eq_some_iff.mp found
  rcases isAbstract_exact .sampleInherited (fun _ => none) {} (.ofTable []) [] [] _ identified
      (BaseGraph.wellFormed_of_closed listed (List.mem_cons_self ..)) with
    ⟨answer, after', answered, means⟩ | ⟨c, fault, after', stopped, -⟩
  · cases asked.symm.trans answered
    exact ⟨after, asked, means.mp rfl⟩
  · cases asked.symm.trans stopped

end Session

end ItaniumRtti
