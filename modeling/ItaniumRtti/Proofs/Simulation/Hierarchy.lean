import ItaniumRtti.Proofs.Alike
import ItaniumRtti.Proofs.Relocation
import ItaniumRtti.Vtable.Vtt

namespace ItaniumRtti

/-!
# Two ways of asking about classes

The questions of an analysis are asked twice: in a context, and in the same context with other
relocations, from states of knowledge that may differ too.

* `Reading` — what the two ways have to share for words of the program to be read alike;
* `Reading.readBases` — direct bases are read alike;
* `Naming` — what they have to share for names to be read alike, too;
* `Following` — what they have to share for edges of the base graph to be followed alike;
* `Following.ancestors`, `Following.baseOffsets`, … — walks over the base graph are answered alike;
* `Walking` — what they have to share for virtual bases to be known alike, too.

`Good` holds of the classes that the questions are about.
-/

open Recover

/-! ### Cells -/

namespace Recover

variable {α : Type} {find : Knowledge → Option α} {keep : α → Knowledge → Knowledge}
  {q : Recover α} {known after : Knowledge} {a : α}

/-- A kept answer is given again, and nothing changes. -/
theorem remember_of_known (found : find known = some a) :
    remember find keep q known = .ok a known := by
  rw [remember, get_bind, found]
  rfl

/-- An answer that was not kept is looked for, and kept. -/
theorem remember_of_new (empty : find known = none) (answered : q known = .ok a after) :
    remember find keep q known = .ok a (keep a after) := by
  rw [remember, get_bind, empty]
  exact bind_ok answered

/-- Once it was answered, the answer is kept. -/
theorem known_of_remember (put : ∀ a known, find (keep a known) = some a)
    (answered : remember find keep q known = .ok a after) : find after = some a := by
  rw [remember, get_bind] at answered
  cases found : find known with
  | some b =>
    simp only [found] at answered
    cases answered
    exact found
  | none =>
    simp only [found] at answered
    obtain ⟨b, k, -, kept⟩ := of_bind_ok answered
    cases kept
    exact put a k

/-- It is stopped only where no answer was kept, as the question itself is. -/
theorem of_remember_error {fault : Fault}
    (stopped : remember find keep q known = .error fault after) :
    find known = none ∧ q known = .error fault after := by
  rw [remember, get_bind] at stopped
  cases found : find known with
  | some b => simp only [found] at stopped; cases stopped
  | none =>
    simp only [found] at stopped
    refine ⟨rfl, ?_⟩
    cases asked : q known with
    | ok b k =>
      rw [bind_ok asked] at stopped
      cases stopped
    | error other k =>
      rw [bind_error asked] at stopped
      exact stopped

end Recover

/-- What is kept for a class in a form is found there, and nothing else changes. -/
theorem NameCells.find_insert (cells : NameCells) (address place : Int) (name : String)
    (form other : NameForm) :
    (cells.insert address name form).find place other =
      if form = other ∧ address = place then some name else cells.find place other := by
  cases form <;> cases other <;>
    simp [insert, find, Std.TreeMap.getElem?_insert]

namespace TypeInfo

variable (ctx : Context) (t : TypeInfo)

/-- How the name of a class is found in a given form, unless it is kept. -/
def readName : NameForm → Recover String
  | .mangled => Recover.typeNameAt ctx t.address
  | .display => return displayName ctx.demangle (← t.typeName ctx)
  | .unique => return ItaniumRtti.uniqueName ctx.demangle (← t.typeName ctx)

/-- The name of a class in a given form. -/
def nameAs (form : NameForm) : Recover String :=
  t.rememberName form (t.readName ctx form)

end TypeInfo

/-! ### Reading and walking -/

/-- Two ways of reading a program: in `ctx`, and with other `relocations`.  States of knowledge
    correspond by `R`; `Good` holds of every class that recognition finds. -/
structure Reading (ctx : Context) (relocations : Std.TreeMap Int Relocation) (R : Link)
    (Good : TypeInfo → Prop) : Prop where
  /-- Words are read alike. -/
  reads : ctx.ReadsAlike relocations
  /-- What reading words can meet may occur. -/
  tolerates : ctx.Tolerates R.faults
  /-- Recognised classes are good. -/
  good : ∀ {address t}, ctx.roots.identify ctx.image address = .ok (some t) → Good t
  /-- A recognised class may be met. -/
  meet : ∀ {k k' address t}, ctx.roots.identify ctx.image address = .ok (some t) →
    R.states k k' → R.states (k.meet t) (k'.meet t)

/-- Two ways of reading a program and the names of its classes. -/
structure Naming (ctx : Context) (relocations : Std.TreeMap Int Relocation) (R : Link)
    (Named : TypeInfo → Prop) : Prop extends Reading ctx relocations R Named where
  /-- Names are read alike. -/
  typeNameAt : ∀ {t}, Named t → Alike R Any (Recover.typeNameAt ctx t.address)
    (Recover.typeNameAt (ctx.withRelocations relocations) t.address)
  /-- The cells with a class's names are used alike once the questions that fill them are. -/
  nameCell : ∀ {t} (form : NameForm), Named t →
    Alike R Any (t.readName ctx form) (t.readName (ctx.withRelocations relocations) form) →
    Alike R Any (t.nameAs ctx form) (t.nameAs (ctx.withRelocations relocations) form)
  /-- Names are found alike whether or not the class was met. -/
  nameOf : ∀ {t}, Named t →
    Alike R Any (Recover.nameOf ctx t) (Recover.nameOf (ctx.withRelocations relocations) t)

/-- Two ways of following the edges of the base graph. -/
structure Following (ctx : Context) (relocations : Std.TreeMap Int Relocation) (R : Link)
    (Good : TypeInfo → Prop) : Prop where
  /-- Walks have the same bound. -/
  bound : (ctx.withRelocations relocations).image.classBound = ctx.image.classBound
  /-- Direct bases are known alike. -/
  bases : ∀ {t}, Good t → Alike R (fun bases => ∀ b ∈ bases, Good b.target) (t.bases ctx)
    (t.bases (ctx.withRelocations relocations))

/-- Two ways of walking over the base graph. -/
structure Walking (ctx : Context) (relocations : Std.TreeMap Int Relocation) (R : Link)
    (Good : TypeInfo → Prop) : Prop extends Following ctx relocations R Good where
  /-- The cell with a class's virtual bases is used alike once the walk that fills it is. -/
  virtualCell : ∀ {t}, Good t →
    Alike R (fun classes => ∀ c ∈ classes, Good c) (t.collectVirtualBases ctx)
      (t.collectVirtualBases (ctx.withRelocations relocations)) →
    Alike R (fun classes => ∀ c ∈ classes, Good c) (t.virtualBases ctx)
      (t.virtualBases (ctx.withRelocations relocations))

namespace Reading

variable {ctx : Context} {relocations : Std.TreeMap Int Relocation} {R : Link}
  {Good : TypeInfo → Prop}

/-! ### Classes -/

variable (sim : Reading ctx relocations R Good)
include sim

/-- Both ways ask whether somebody wants to stop. -/
theorem checkCancelled : Alike R Any (Recover.checkCancelled ctx)
    (Recover.checkCancelled (ctx.withRelocations relocations)) := by
  show Alike R Any _ (if ctx.cancelled then _ else _)
  rw [Recover.checkCancelled]
  exact .ite (fun stopped => .throw (sim.tolerates.cancelled stopped)) (fun _ => .pure trivial)

/-- Both recognise the same class, and nothing is recorded. -/
theorem identify (address : Int) :
    Alike R (fun found => ctx.roots.identify ctx.image address = .ok found)
      (lift (ctx.roots.identify ctx.image address))
      (lift (ctx.roots.identify (ctx.withRelocations relocations).image address)) := by
  rw [sim.reads.identify]
  exact .lift (sim.tolerates.identify address) fun _ identified => identified

/-- Words lead to the same place. -/
theorem resolve (address : Int) :
    Alike R Any (lift (ctx.image.resolve address))
      (lift ((ctx.withRelocations relocations).image.resolve address)) := by
  rw [sim.reads.resolve]
  exact .liftAny (sim.tolerates.resolve address)

/-- Searches find the same words. -/
theorem references {cancelled : Bool} (stopped : cancelled = true → R.faults .cancelled)
    {target : Int} (searchable : ctx.Searchable R.faults target) :
    Alike R Any (lift (ctx.image.findReferences cancelled target ctx.image.ptr))
      (lift ((ctx.withRelocations relocations).image.findReferences cancelled target
        ctx.image.ptr)) := by
  rw [sim.reads.references]
  exact .liftAny (sim.tolerates.references stopped searchable)

/-- Both recognise the same class and record that they met it. -/
theorem classAt? (address : Int) :
    Alike R (fun found => ctx.roots.identify ctx.image address = .ok found)
      (Recover.classAt? ctx address)
      (Recover.classAt? (ctx.withRelocations relocations) address) := by
  rw [Recover.classAt?, Recover.classAt?]
  refine (sim.identify address).bind fun found identified => ?_
  cases found with
  | none => exact .pure identified
  | some t =>
    refine Alike.bind (Alike.modify fun k k' related => sim.meet identified related) fun _ _ => ?_
    exact .pure identified

/-! ### Direct bases -/

variable (malformed : ∀ what, R.faults (.malformed what))
include malformed

/-- A field that should lead to a base does so in both ways, or makes the class malformed in both.
    -/
theorem baseAt (owner : TypeInfo) (field : Int) :
    Alike R Good (Recover.baseAt ctx owner field)
      (Recover.baseAt (ctx.withRelocations relocations) owner field) := by
  rw [Recover.baseAt, Recover.baseAt]
  refine (sim.resolve field).bind fun value _ => ?_
  cases value with
  | none => exact .throw (malformed _)
  | some target =>
    refine (sim.classAt? target).bind fun found identified => ?_
    cases found with
    | none => exact .throw (malformed _)
    | some t => exact .pure (sim.good identified)

/-- Base descriptors are read alike, one after the other. -/
theorem descriptors (owner : TypeInfo) (count : Nat) (field : Int) :
    Alike R (fun bases => ∀ b ∈ bases, Good b.target) (Recover.descriptors ctx owner count field)
      (Recover.descriptors (ctx.withRelocations relocations) owner count field) := by
  -- Each descriptor takes two words, and the induction is on the descriptors that are left.
  induction count generalizing field with
  | zero => exact .pure (List.forall_mem_nil _)
  | succ count ih =>
    rw [Recover.descriptors, Recover.descriptors]
    refine (sim.baseAt malformed owner field).bind fun target good => ?_
    refine (Alike.liftAny (sim.tolerates.readInt _ _ true)).bind fun word _ => ?_
    cases word with
    | none => exact .throw (malformed _)
    | some word =>
      refine (ih (field + 2 * ctx.image.ptr)).bind fun rest others => ?_
      exact .pure (List.forall_mem_cons.mpr ⟨good, others⟩)

/-- The direct bases of a class are read alike, whichever way the class describes them. -/
theorem readBases (t : TypeInfo) :
    Alike R (fun bases => ∀ b ∈ bases, Good b.target) (t.readBases ctx)
      (t.readBases (ctx.withRelocations relocations)) := by
  rw [TypeInfo.readBases, TypeInfo.readBases]
  cases t.kind with
  | simple => exact .pure (List.forall_mem_nil _)
  | single =>
    refine (sim.baseAt malformed t _).bind fun target good => ?_
    exact .pure (List.forall_mem_singleton.mpr good)
  | general =>
    refine (Alike.liftAny (sim.tolerates.readInt _ _ false)).bind fun count _ => ?_
    cases count with
    | none => exact .throw (malformed _)
    | some count =>
      refine (Alike.liftAny (sim.tolerates.baseCount count)).bind fun tooMany _ => ?_
      exact .ite (fun _ => .throw (malformed _)) (fun _ => sim.descriptors malformed t _ _)

end Reading

namespace Naming

variable {ctx : Context} {relocations : Std.TreeMap Int Relocation} {R : Link}
  {Named : TypeInfo → Prop} (sim : Naming ctx relocations R Named) {t : TypeInfo}
include sim

/-- The name that a class stores is found alike. -/
theorem typeName (named : Named t) :
    Alike R Any (t.typeName ctx) (t.typeName (ctx.withRelocations relocations)) :=
  sim.nameCell .mangled named (sim.typeNameAt named)

/-- The names of a class are found alike in every form, since they are made of the mangled one. -/
theorem nameAs (form : NameForm) (named : Named t) :
    Alike R Any (t.nameAs ctx form) (t.nameAs (ctx.withRelocations relocations) form) := by
  refine sim.nameCell form named ?_
  cases form with
  | mangled => exact sim.typeNameAt named
  | display => exact (sim.typeName named).map fun _ _ => trivial
  | unique => exact (sim.typeName named).map fun _ _ => trivial

/-- So is the name that it is shown by. -/
theorem name (named : Named t) :
    Alike R Any (t.name ctx) (t.name (ctx.withRelocations relocations)) :=
  sim.nameAs .display named

end Naming

/-- Edges are followed alike if the cells with a class's direct bases are used alike once the
    questions that fill them are. -/
theorem Reading.following {ctx : Context} {relocations : Std.TreeMap Int Relocation} {R : Link}
    {Good : TypeInfo → Prop} (sim : Reading ctx relocations R Good)
    (malformed : ∀ what, R.faults (.malformed what))
    (cell : ∀ {t : TypeInfo}, Good t →
      Alike R (fun bases => ∀ b ∈ bases, Good b.target) (t.readBases ctx)
        (t.readBases (ctx.withRelocations relocations)) →
      Alike R (fun bases => ∀ b ∈ bases, Good b.target) (t.bases ctx)
        (t.bases (ctx.withRelocations relocations))) :
    Following ctx relocations R Good where
  bound := sim.reads.classBound
  bases {t} good := cell good (sim.readBases malformed t)

namespace Following

variable {ctx : Context} {relocations : Std.TreeMap Int Relocation} {R : Link}
  {Good : TypeInfo → Prop} (sim : Following ctx relocations R Good)
include sim

/-! ### Walks -/

/-- Walks along pending edges list the same edges. -/
theorem edgesFrom (fuel : Nat) (seen : List Int) (pending : List Base)
    (good : ∀ e ∈ pending, Good e.target) :
    Alike R (fun edges => ∀ e ∈ edges, Good e.target) (Recover.edgesFrom ctx fuel seen pending)
      (Recover.edgesFrom (ctx.withRelocations relocations) fuel seen pending) := by
  induction fuel generalizing seen pending with
  | zero => exact .pure good
  | succ fuel ih =>
    rw [Recover.edgesFrom, Recover.edgesFrom]
    -- Edges to classes entered before are listed; the first other edge is followed.
    have old : ∀ e ∈ pending.takeWhile (fun e => seen.contains e.target.address), Good e.target :=
      fun e member => good e ((List.takeWhile_prefix _).subset member)
    have new : ∀ e ∈ pending.dropWhile (fun e => seen.contains e.target.address), Good e.target :=
      fun e member => good e ((List.dropWhile_suffix _).subset member)
    revert new
    cases pending.dropWhile (fun e => seen.contains e.target.address) with
    | nil => exact fun _ => .pure old
    | cons edge rest =>
      intro new
      obtain ⟨first, others⟩ := List.forall_mem_cons.mp new
      refine (sim.bases first).bind fun below ahead => ?_
      refine (ih _ _ (List.forall_mem_append.mpr ⟨ahead, others⟩)).bind fun more later => ?_
      exact .pure (List.forall_mem_append.mpr ⟨old, List.forall_mem_cons.mpr ⟨first, later⟩⟩)

/-- So do walks from a class. -/
theorem edges {t : TypeInfo} (good : Good t) :
    Alike R (fun edges => ∀ e ∈ edges, Good e.target) (t.edges ctx)
      (t.edges (ctx.withRelocations relocations)) := by
  rw [TypeInfo.edges, TypeInfo.edges, sim.bound]
  exact (sim.bases good).bind fun bases below => sim.edgesFrom _ _ bases below

end Following

/-- The classes kept by `firstOccurrences` are classes of the list. -/
theorem mem_of_mem_firstOccurrences {classes : List TypeInfo} {t : TypeInfo}
    (member : t ∈ firstOccurrences classes) : t ∈ classes := by
  -- What is collected so far only grows, by classes of the list.
  have kept : ∀ (classes seen : List TypeInfo),
      t ∈ classes.foldl (fun seen t =>
        if seen.any (·.address == t.address) then seen else seen ++ [t]) seen →
      t ∈ seen ∨ t ∈ classes := by
    intro classes
    induction classes with
    | nil => exact fun seen member => .inl member
    | cons c rest ih =>
      intro seen member
      simp only [List.foldl_cons] at member
      rcases ih _ member with before | later
      · split at before
        · exact .inl before
        · rcases List.mem_append.mp before with old | new
          · exact .inl old
          · exact .inr (List.mem_singleton.mp new ▸ List.mem_cons_self ..)
      · exact .inr (List.mem_cons_of_mem c later)
  exact (kept classes [] member).resolve_left List.not_mem_nil

namespace Following

variable {ctx : Context} {relocations : Std.TreeMap Int Relocation} {R : Link}
  {Good : TypeInfo → Prop} (sim : Following ctx relocations R Good)
include sim

/-- Ancestors are found alike, and all of them are good: each is the target of an edge. -/
theorem ancestors {t : TypeInfo} (good : Good t) :
    Alike R (fun classes => ∀ c ∈ classes, Good c) (t.ancestors ctx)
      (t.ancestors (ctx.withRelocations relocations)) := by
  refine (sim.edges good).map fun edges targets c member => ?_
  have listed := mem_of_mem_firstOccurrences (List.mem_filter.mp member).1
  obtain ⟨edge, present, rfl⟩ := List.mem_map.mp listed
  exact targets edge present

/-- So are virtual bases, if they have to be collected. -/
theorem collectVirtualBases {t : TypeInfo} (good : Good t) :
    Alike R (fun classes => ∀ c ∈ classes, Good c) (t.collectVirtualBases ctx)
      (t.collectVirtualBases (ctx.withRelocations relocations)) := by
  refine (sim.edges good).map fun edges targets c member => ?_
  obtain ⟨edge, present, rfl⟩ := List.mem_map.mp (mem_of_mem_firstOccurrences member)
  exact targets edge (List.mem_filter.mp present).1

/-- Walks that add up offsets find the same bases at the same places. -/
theorem offsetsBelow (fuel : Nat) {owner : TypeInfo} (good : Good owner) (place : Int)
    (path : List Int) (found : List (TypeInfo × Int)) (goods : ∀ p ∈ found, Good p.1) :
    Alike R (fun found => ∀ p ∈ found, Good p.1)
      (Recover.offsetsBelow ctx fuel owner place path found)
      (Recover.offsetsBelow (ctx.withRelocations relocations) fuel owner place path found) := by
  induction fuel generalizing owner place path found with
  | zero => exact .pure goods
  | succ fuel ih =>
    rw [Recover.offsetsBelow, Recover.offsetsBelow]
    refine (sim.bases good).bind fun bases below => ?_
    -- The walk below one base starts with what the walks below the bases before it have found.
    refine Alike.foldlM below goods fun found base goods target => ?_
    refine .ite (fun _ => .pure goods) (fun _ => ih target _ _ _ ?_)
    exact List.forall_mem_append.mpr ⟨goods, List.forall_mem_singleton.mpr target⟩

/-- So bases are placed alike. -/
theorem baseOffsets {t : TypeInfo} (good : Good t) :
    Alike R (fun found => ∀ p ∈ found, Good p.1) (t.baseOffsets ctx)
      (t.baseOffsets (ctx.withRelocations relocations)) := by
  rw [TypeInfo.baseOffsets, TypeInfo.baseOffsets, sim.bound]
  exact sim.offsetsBelow _ good _ _ _ (List.forall_mem_nil _)

end Following

namespace Walking

variable {ctx : Context} {relocations : Std.TreeMap Int Relocation} {R : Link}
  {Good : TypeInfo → Prop} (sim : Walking ctx relocations R Good)
include sim

/-- Virtual bases are the same, collected or kept. -/
theorem virtualBases {t : TypeInfo} (good : Good t) :
    Alike R (fun classes => ∀ c ∈ classes, Good c) (t.virtualBases ctx)
      (t.virtualBases (ctx.withRelocations relocations)) :=
  sim.virtualCell good (sim.collectVirtualBases good)

/-- Whether a class has secondary tables is decided alike: by its virtual bases, or else by a class
    that describes its bases in the general way and has some. -/
theorem hasSecondaries {t : TypeInfo} (good : Good t) :
    Alike R Any (t.hasSecondaries ctx) (t.hasSecondaries (ctx.withRelocations relocations)) := by
  rw [TypeInfo.hasSecondaries, TypeInfo.hasSecondaries]
  refine (sim.virtualBases good).bind fun virtuals _ => .ite (fun _ => .pure trivial) fun _ => ?_
  refine (sim.ancestors good).bind fun ancestors reached => ?_
  -- The class itself is asked first, then its ancestors.
  refine Alike.anyM (List.forall_mem_cons.mpr ⟨good, reached⟩) fun node good => ?_
  exact .ite (fun _ => (sim.bases good).map fun _ _ => trivial) (fun _ => .pure trivial)

end Walking

end ItaniumRtti
