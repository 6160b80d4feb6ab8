import ItaniumRtti.Analysis.Run
import ItaniumRtti.Proofs.Simulation.Hierarchy

namespace ItaniumRtti

/-!
# Two ways of looking for classes

* `Naming.findTypeInfo` — the class of a given name is found alike;
* `Reading.discover` — all classes are;
* `Naming.keep` — and so are those that pass the filter of a job.
-/

open Recover

namespace Naming

variable {ctx : Context} {relocations : Std.TreeMap Int Relocation} {R : Link}
  {Good : TypeInfo → Prop} (sim : Naming ctx relocations R Good)
include sim

/-! ### By name -/

/-- The references are tried in the same order, and each is a class with the name in both ways or in
    neither. -/
theorem firstNamed (name : String) (references : List Int) :
    Alike R Any (Recover.firstNamed ctx name references)
      (Recover.firstNamed (ctx.withRelocations relocations) name references) := by
  induction references with
  | nil => exact .pure trivial
  | cons reference rest ih =>
    rw [Recover.firstNamed, Recover.firstNamed]
    refine (sim.identify (reference - ctx.image.ptr)).bind fun found identified => ?_
    cases found with
    | none => exact ih
    | some t =>
      refine (sim.nameOf (sim.good identified)).bind fun typeName _ => ?_
      exact .ite (fun _ => .pure trivial) (fun _ => ih)

/-- A class is looked for by name alike. A single hit is followed to its references; none, or more
    than one, is no answer in both ways. -/
theorem findTypeInfo {cancelled : Bool} (stopped : cancelled = true → R.faults .cancelled)
    (searchable : ∀ hit, ctx.Searchable R.faults hit) (within : Option AddressRange)
    (name : String) :
    Alike R Any (Recover.findTypeInfo ctx cancelled within name)
      (Recover.findTypeInfo (ctx.withRelocations relocations) cancelled within name) := by
  rw [Recover.findTypeInfo, Recover.findTypeInfo]
  refine .ite (fun _ => .pure trivial) fun _ => ?_
  extract_lets img ranges search img' ranges' search'
  refine .ite (fun both => .throw (stopped (Bool.and_eq_true_iff.mp both).1)) fun _ => ?_
  -- No search for a text looks at relocations, so the hits are the same.
  have sameHits : ranges'.flatMap (img'.wholeHitsIn (encodeUtf8 name ++ [0])) =
      ranges.flatMap (img.wholeHitsIn (encodeUtf8 name ++ [0])) := rfl
  dsimp only [search, search']
  rw [sameHits]
  rcases ranges.flatMap (img.wholeHitsIn (encodeUtf8 name ++ [0])) with
    _ | ⟨hit, _ | ⟨second, rest⟩⟩
  · exact .pure trivial
  · refine (sim.references stopped (searchable hit)).bind fun references _ => ?_
    exact sim.firstNamed name references
  · exact .pure trivial

end Naming

/-! ### All classes -/

namespace Reading

variable {ctx : Context} {relocations : Std.TreeMap Int Relocation} {R : Link}
  {Good : TypeInfo → Prop} (sim : Reading ctx relocations R Good)
include sim

/-- The scan finds the same addresses: searches for the roots find the same words, and the
    relocations that name a root are the same. -/
theorem scanForClasses (searchable : ∀ p ∈ ctx.roots.points, ctx.Searchable R.faults p.1) :
    Alike R Any (Recover.scanForClasses ctx)
      (Recover.scanForClasses (ctx.withRelocations relocations)) := by
  rw [Recover.scanForClasses, Recover.scanForClasses]
  refine Alike.bind (P := Any) (Alike.any (Alike.mapM (S := Any) searchable fun point fits => ?_))
    fun stored _ => ?_
  · exact sim.checkCancelled.bind fun _ _ => sim.references sim.tolerates.cancelled fits
  · rw [sim.reads.namedRelocations]
    exact .pure trivial

/-- The same classes are recognised among given addresses. -/
theorem classesAmong (addresses : List Int) :
    Alike R (fun classes => ∀ t ∈ classes, Good t) (Recover.classesAmong ctx addresses)
      (Recover.classesAmong (ctx.withRelocations relocations) addresses) := by
  induction addresses with
  | nil => exact .pure (List.forall_mem_nil _)
  | cons address rest ih =>
    rw [Recover.classesAmong, Recover.classesAmong]
    refine sim.checkCancelled.bind fun _ _ => ?_
    refine (sim.classAt? address).bind fun found identified => ih.bind fun more others => ?_
    refine .pure (List.forall_mem_append.mpr ⟨fun t member => ?_, others⟩)
    rw [Option.mem_toList.mp member] at identified
    exact sim.good identified

/-- All classes are looked for alike, by symbols first and then by a scan. -/
theorem discover (named : OnlyFaults R.faults (namedClasses ctx))
    (searchable : ∀ p ∈ ctx.roots.points, ctx.Searchable R.faults p.1) :
    Alike R (fun classes => ∀ t ∈ classes, Good t) (Recover.discover ctx)
      (Recover.discover (ctx.withRelocations relocations)) := by
  rw [Recover.discover, Recover.discover]
  refine (Alike.liftAny named).bind fun named _ => ?_
  refine .ite (fun _ => ?_) fun _ => ?_
  · exact (sim.scanForClasses searchable).bind fun scanned _ => sim.classesAmong _
  · exact sim.classesAmong _

end Reading

/-! ### Wanted classes -/

namespace Naming

variable {ctx : Context} {relocations : Std.TreeMap Int Relocation} {R : Link}
  {Good : TypeInfo → Prop} (sim : Naming ctx relocations R Good)
include sim

/-- A class is compared with a wanted name in all three forms of its own. -/
theorem wants (wanted : String) {t : TypeInfo} (good : Good t) :
    Alike R Any (Job.wants ctx wanted t)
      (Job.wants (ctx.withRelocations relocations) wanted t) := by
  refine (sim.name good).bind fun _ _ => (sim.nameAs .unique good).bind fun _ _ => ?_
  exact (sim.typeName good).map fun _ _ => trivial

/-- The same classes are kept; without a wanted name, all of them. -/
theorem keep (wanted : Option String) (classes : List TypeInfo) (good : ∀ t ∈ classes, Good t) :
    Alike R (fun kept => ∀ t ∈ kept, Good t) (Job.keep ctx wanted classes)
      (Job.keep (ctx.withRelocations relocations) wanted classes) := by
  rw [Job.keep, Job.keep]
  cases wanted.filter (· ≠ "") with
  | none => exact .pure good
  | some name => exact .filterM good fun t good => sim.wants name good

end Naming

end ItaniumRtti
