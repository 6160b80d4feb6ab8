import ItaniumRtti.Analysis.Run
import ItaniumRtti.Proofs.Invariant
import ItaniumRtti.Proofs.Reachable

namespace ItaniumRtti

/-!
# Malformed classes are isolated

A class whose base descriptors are malformed spoils the reports of the classes that reach it, and
nothing else.

* `Context.Rejects` — the base descriptors of a class are malformed;
* `Context.Reported` — what is reported of a class: an error if a malformed class can be reached;
* `TypeInfo.report_ends` — a class is reported so, or a search for a target that no pointer can
  hold ends the analysis;
* `Job.run_ends` — so are all classes of a program;
* `Job.malformed_isolated` — no malformed class ends the analysis of a program.
-/

open Recover

/-! ### Malformed classes -/

/-- The message of a malformed class is not empty, so that it can be told from no error. -/
theorem Malformed.message_ne_empty (what : Malformed) : what.message ≠ "" := by
  intro empty
  have parts : "type_info at " ++ signedHex what.owner ++ ": descriptor at " ++
      signedHex what.descriptor ++ " " ++ what.malformation.reason = "" := empty
  simp only [String.append_eq_empty_iff] at parts
  exact absurd parts.1.1.1.1.1 (by decide)

namespace Context

/-- The base descriptors of the class are malformed. -/
def Rejects (ctx : Context) (t : TypeInfo) : Prop :=
  ∃ what after, t.readBases ctx .initial = .error (.malformed what) after

variable {ctx : Context} {detector : Option Detector}

/-- Nothing but a malformed descriptor keeps direct bases from being read. -/
theorem fresh_or_rejects (readable : ctx.image.order.Known) (running : ctx.cancelled = false)
    (fit : ctx.limits.Fit) (t : TypeInfo) :
    (∃ bases, Fresh (t.readBases ctx) bases) ∨ ctx.Rejects t := by
  let F : Fault → Prop := fun fault => ∃ what, fault = .malformed what
  have alike : Alike (.invariant Any F) _ (t.readBases ctx) (t.readBases ctx) :=
    (ctx.reading (ctx.tolerates readable running fit F) fun _ _ => trivial).readBases
      (fun what => ⟨what, rfl⟩) t
  rcases (alike .initial .initial ⟨trivial, trivial⟩).cases with
    ⟨bases, after, _, read, -⟩ | ⟨_, after, _, stopped, -, ⟨what, rfl⟩, -⟩
  · exact .inl ⟨bases, after, read⟩
  · exact .inr ⟨what, after, stopped⟩

/-- A hierarchy is malformed exactly if it has a class that is rejected. -/
theorem not_wellFormed_iff (readable : ctx.image.order.Known) (running : ctx.cancelled = false)
    (fit : ctx.limits.Fit) {t : TypeInfo} :
    ¬ ctx.WellFormed t ↔ ∃ c, ctx.Reaches t c ∧ ctx.Rejects c := by
  constructor
  · intro malformed
    by_contra none
    refine malformed fun {c} reached => ?_
    exact (fresh_or_rejects readable running fit c).resolve_right fun rejects =>
      none ⟨c, reached, rejects⟩
  · rintro ⟨c, reached, what, after, stopped⟩ wellFormed
    obtain ⟨bases, before, read⟩ := wellFormed reached
    cases read.symm.trans stopped

end Context

/-! ### Stages that stop -/

/-- Nothing is reported of a vtable or of what depends on it. -/
structure ClassReport.Bare (report : ClassReport) : Prop where
  /-- No vtable. -/
  vtable : report.vtable = none
  /-- No table of vtables. -/
  vtt : report.vtt = []
  /-- No constructors or destructors. -/
  assignments : report.assignments = []
  /-- Not abstract. -/
  isAbstract : report.isAbstract = false

/-- If one of the early stages cannot be answered and they meet malformed classes only, the report
    is what was known before that stage, with an error. -/
theorem ClassReport.runStages_stops {S : Knowledge → Prop} {F : Fault → Prop}
    (only : ∀ fault, F fault → ∃ what, fault = .malformed what)
    {early : List (ClassReport → Recover ClassReport)}
    (each : ∀ stage ∈ early, ∀ report : ClassReport, Alike (.exceptStores S F)
      (fun next => report.SameClass next ∧ (report.Bare → next.Bare)) (stage report) (stage report))
    (stuck : ∃ stage ∈ early, ∀ report known, S known →
      ∀ next after, stage report known ≠ .ok next after)
    (late : List (ClassReport → Recover ClassReport)) {report : ClassReport} (bare : report.Bare)
    {known : Knowledge} (holds : S known) :
    ∃ last after, runStages (early ++ late) report known = .ok last after ∧ S after ∧
      report.SameClass last ∧ last.Bare ∧ last.error ≠ "" := by
  induction early generalizing report known with
  | nil =>
    obtain ⟨_, member, _⟩ := stuck
    exact absurd member List.not_mem_nil
  | cons stage rest ih =>
    obtain ⟨first, others⟩ := List.forall_mem_cons.mp each
    rw [List.cons_append, runStages]
    dsimp only
    rcases (first report).ends holds with
      ⟨next, l, answered, ⟨same, still⟩, after⟩ | ⟨fault, l, stopped, allowed, after⟩
    · -- The stage was answered, so it is a later one that cannot be.
      rw [answered]
      have later : ∃ stage ∈ rest, ∀ report known, S known →
          ∀ next after, stage report known ≠ .ok next after := by
        obtain ⟨other, member, never⟩ := stuck
        rcases List.mem_cons.mp member with rfl | member
        · exact absurd answered (never report known holds next l)
        · exact ⟨other, member, never⟩
      obtain ⟨last, k, ran, orderly, also, bare, error⟩ := ih others later (still bare) after
      exact ⟨last, k, ran, orderly,
        ⟨also.address.trans same.address, also.kind.trans same.kind⟩, bare, error⟩
    · rw [stopped]
      obtain ⟨what, rfl⟩ := only fault allowed
      exact ⟨_, l, rfl, after, ⟨rfl, rfl⟩,
        ⟨bare.vtable, bare.vtt, bare.assignments, bare.isAbstract⟩, what.message_ne_empty⟩

/-! ### Reports of classes -/

/-- What is reported of a class: an error, and then nothing of vtables, exactly if a malformed
    class can be reached from it. -/
structure Context.Reported (ctx : Context) (t : TypeInfo) (report : ClassReport) : Prop where
  /-- The report is about the class. -/
  about : (⟨report.address, report.kind⟩ : TypeInfo) = t
  /-- Errors tell of malformed classes. -/
  error : report.error ≠ "" ↔ ∃ c, ctx.Reaches t c ∧ ctx.Rejects c
  /-- Where there is an error, nothing of vtables is reported. -/
  bare : report.error ≠ "" → report.Bare

namespace TypeInfo

variable {ctx : Context} {detector : Option Detector} {Kept : Int → Vtable → Prop}
  (readable : ctx.image.order.Known) (running : ctx.cancelled = false) (fit : ctx.limits.Fit)
include readable running fit

/-- A class from which a malformed one can be reached is reported with an error. -/
theorem report_of_malformed {t : TypeInfo} (identified : ctx.Identified t)
    (malformed : ¬ ctx.WellFormed t) {known : Knowledge}
    (orderly : ctx.Orderly detector Kept known) :
    ∃ report after, t.report ctx detector known = .ok report after ∧
      ctx.Orderly detector Kept after ∧ ctx.Reported t report := by
  let F : Fault → Prop := fun fault => ∃ what, fault = .malformed what
  have sim : Locating ctx ctx.image.relocations (.exceptStores (ctx.Orderly detector Kept) F)
      ctx.Identified (ctx.Below t) :=
    Context.stable_orderly.locating (ctx.tolerates readable running fit F)
      (.inl fun what => ⟨what, rfl⟩)
  have good : ctx.Below t t := ⟨identified, .self⟩
  -- The first three stages read names and walk over the base graph, which ends the third.
  have each : ∀ stage ∈ (t.stages ctx detector).take 3, ∀ report : ClassReport,
      Alike (.exceptStores (ctx.Orderly detector Kept) F)
        (fun next => report.SameClass next ∧ (report.Bare → next.Bare))
        (stage report) (stage report) := by
    have kept : ∀ {report next : ClassReport}, next.address = report.address →
        next.kind = report.kind → next.vtable = report.vtable → next.vtt = report.vtt →
        next.assignments = report.assignments → next.isAbstract = report.isAbstract →
        report.SameClass next ∧ (report.Bare → next.Bare) := by
      intro report next address kind vtable vtt assignments isAbstract
      exact ⟨⟨address, kind⟩, fun bare => ⟨vtable.trans bare.vtable, vtt.trans bare.vtt,
        assignments.trans bare.assignments, isAbstract.trans bare.isAbstract⟩⟩
    intro stage member report
    simp only [stages, List.take_succ_cons, List.take_zero, List.mem_cons, List.not_mem_nil,
      or_false] at member
    rcases member with rfl | rfl | rfl
    · refine (sim.typeName identified).bind fun _ _ => ?_
      exact (sim.name identified).map fun _ _ => kept rfl rfl rfl rfl rfl rfl
    · refine (sim.bases good).bind fun bases below => ?_
      have reported : ∀ b : Base, ctx.Below t b.target →
          Alike _ Any (baseReport ctx b) (baseReport ctx b) :=
        fun b below => (sim.name below.1).map fun _ _ => trivial
      exact (Alike.mapM below reported).map fun _ _ => kept rfl rfl rfl rfl rfl rfl
    · exact (sim.virtualBases good).map fun _ _ => kept rfl rfl rfl rfl rfl rfl
  have stuck : ∃ stage ∈ (t.stages ctx detector).take 3, ∀ report known,
      ctx.Orderly detector Kept known → ∀ next after, stage report known ≠ .ok next after := by
    refine ⟨_, List.mem_cons_of_mem _ (List.mem_cons_of_mem _ (List.mem_cons_self ..)), ?_⟩
    intro report known orderly next after answered
    obtain ⟨virtuals, k, collected, -⟩ := of_bind_ok answered
    exact malformed (Context.wellFormed_of_virtualBases identified orderly.bases collected)
  have empty : ClassReport.Bare { address := t.address, kind := t.kind } := ⟨rfl, rfl, rfl, rfl⟩
  obtain ⟨report, after, ran, still, same, bare, error⟩ := ClassReport.runStages_stops
    (fun _ allowed => allowed) each stuck ((t.stages ctx detector).drop 3) empty orderly
  rw [List.take_append_drop] at ran
  refine ⟨report, after, ran, still, ?_, ?_, fun _ => bare⟩
  · rw [same.address, same.kind]
  · exact iff_of_true error ((Context.not_wellFormed_iff readable running fit).mp malformed)

/-- **A class is reported with an error exactly if a malformed class can be reached from it.**
    Only a search for a target that no pointer can hold prevents the report. -/
theorem report_ends (answers : ∀ d ∈ detector, ctx.Answers d) {t : TypeInfo}
    (identified : ctx.Identified t) {known : Knowledge}
    (orderly : ctx.Orderly detector Kept known) :
    (∃ report after, t.report ctx detector known = .ok report after ∧
      ctx.Orderly detector Kept after ∧ ctx.Reported t report) ∨
    ∃ fault after, t.report ctx detector known = .error fault after ∧ ctx.OutOfRange fault := by
  -- Without malformed classes no stage stops; with one, a stage stops with the error.
  by_cases wellFormed : ctx.WellFormed t
  · have sim := Context.orderlyReports Kept (ctx.tolerates readable running fit ctx.OutOfRange)
      Context.searches_outOfRange running answers (t := t) (.inr wellFormed)
    have good : ctx.Below t t := ⟨identified, .self⟩
    rcases (sim.report good).ends orderly with
      ⟨report, after, reported, ⟨about, clean⟩, still⟩ | ⟨fault, after, stopped, allowed, -⟩
    · have noError : report.error = "" := clean fun what malformed => by cases malformed.1
      refine .inl ⟨report, after, reported, still, ?_, ?_, fun error => absurd noError error⟩
      · rw [about.1, about.2]
      · refine iff_of_false (fun error => error noError) fun malformed => ?_
        exact (Context.not_wellFormed_iff readable running fit).mpr malformed wellFormed
    · exact .inr ⟨fault, after, stopped, allowed.1⟩
  · exact .inl (report_of_malformed readable running fit identified wellFormed orderly)

end TypeInfo

/-! ### Analyses -/

namespace Job

/-- The detector that an analysis uses. -/
def usedDetector (job : Job) : Option Detector :=
  if job.limits.detectConstructors then job.detector else none

/-- The hierarchy of these reports. -/
def hierarchyOf (job : Job) (reports : List ClassReport) : Hierarchy :=
  { info := job.imageInfo, classes := reports, pureAddress := job.context.roots.pureAddress }

variable {job : Job}

/-- If all classes are reported, they make up the hierarchy. -/
theorem recoverClasses_of_reports {classes : List TypeInfo} {known : Knowledge}
    {all : List ClassReport} (reported : reports job.context job.usedDetector classes known =
      (all, none)) :
    (job.recoverClasses classes known).1 = .ok (job.hierarchyOf all) := by
  rw [recoverClasses]
  simp only [show reports job.context (if job.limits.detectConstructors then job.detector else none)
    classes known = (all, none) from reported]
  rfl

/-- A fault in a report is the result. -/
theorem recoverClasses_of_fault {classes : List TypeInfo} {known : Knowledge}
    {before : List ClassReport} {fault : Fault}
    (stopped : reports job.context job.usedDetector classes known = (before, some fault)) :
    (job.recoverClasses classes known).1 = .error fault := by
  rw [recoverClasses]
  simp only [show reports job.context (if job.limits.detectConstructors then job.detector else none)
    classes known = (before, some fault) from stopped]

/-- The result of a run is that of discovery, of the filter and of recovery, one after the
    other. -/
theorem run_eq (abi : job.image.followsItaniumAbi = true) :
    job.run.1 =
      match (Recover.discover job.context >>= keep job.context job.filter) .initial with
      | .error fault _ => .error fault
      | .ok classes known => (job.recoverClasses classes known).1 := by
  rw [run, abi]
  simp only [Bool.not_true, Bool.false_eq_true, if_false]
  -- Discovery and the filter are one question, which stops where either of them stops.
  cases found : Recover.discover job.context .initial with
  | error fault known => rw [bind_error found]
  | ok classes known =>
    rw [bind_ok found]
    dsimp only
    cases keep job.context job.filter classes known with
    | error fault after => rfl
    | ok kept after => rfl

variable (readable : job.image.order.Known) (running : job.cancelled = false)
  (fit : job.limits.Fit)
include readable running fit

/-- Classes are reported one after the other. -/
theorem reports_end {detector : Option Detector} {Kept : Int → Vtable → Prop}
    (answers : ∀ d ∈ detector, job.context.Answers d) {classes : List TypeInfo}
    (identified : ∀ t ∈ classes, job.context.Identified t) {known : Knowledge}
    (orderly : job.context.Orderly detector Kept known) :
    (∃ all, reports job.context detector classes known = (all, none) ∧
      List.Forall₂ job.context.Reported classes all) ∨
    ∃ before fault, reports job.context detector classes known = (before, some fault) ∧
      job.context.OutOfRange fault := by
  -- By induction on the classes: each report leaves the knowledge orderly for the next.
  induction classes generalizing known with
  | nil => exact .inl ⟨[], rfl, .nil⟩
  | cons t rest ih =>
    obtain ⟨first, others⟩ := List.forall_mem_cons.mp identified
    rw [reports]
    rcases TypeInfo.report_ends readable running fit answers first orderly with
      ⟨report, after, reported, still, right⟩ | ⟨fault, after, stopped, far⟩
    · rw [reported]
      dsimp only
      rcases ih others still with ⟨all, ran, each⟩ | ⟨before, fault, ran, far⟩
      · rw [ran]
        exact .inl ⟨report :: all, rfl, .cons right each⟩
      · rw [ran]
        exact .inr ⟨report :: before, fault, rfl, far⟩
    · rw [stopped]
      exact .inr ⟨[], fault, rfl, far⟩

/-- **How an analysis ends.**  Every class that discovery finds and the filter keeps is reported,
    or a search for a target that no pointer can hold ends the run. -/
theorem run_ends (abi : job.image.followsItaniumAbi = true)
    (named : job.limits.typeInfoSymbolPrefix.isSome = true)
    (answers : ∀ d ∈ job.detector, job.context.Answers d) :
    (∃ classes known all,
      (Recover.discover job.context >>= keep job.context job.filter) .initial = .ok classes known ∧
      job.run.1 = .ok (job.hierarchyOf all) ∧ List.Forall₂ job.context.Reported classes all) ∨
    job.run.1 = .error .targetRange ∧ ¬ job.context.InRange := by
  have used : ∀ d ∈ job.usedDetector, job.context.Answers d := by
    intro d given
    rw [usedDetector] at given
    split at given
    · exact answers d given
    · cases given
  have prefixed : OnlyFaults job.context.OutOfRange (namedClasses job.context) := by
    obtain ⟨start, given⟩ := Option.isSome_iff_exists.mp named
    have set : job.context.limits.typeInfoSymbolPrefix = some start := given
    rw [namedClasses, set]
    exact .ok _
  -- Only names and classes are looked for before the reports.
  have sim : Naming job.context job.context.image.relocations
      (.exceptStores (job.context.Orderly job.usedDetector fun _ _ => False)
        job.context.OutOfRange)
      job.context.Identified :=
    Context.stable_orderly.naming (job.context.tolerates readable running fit _)
  have chosen : Alike _ _ (Recover.discover job.context >>= keep job.context job.filter)
      (Recover.discover job.context >>= keep job.context job.filter) :=
    (sim.discover prefixed Context.searches_outOfRange.root).bind fun classes good =>
      sim.keep job.filter classes good
  rw [run_eq abi]
  rcases chosen.ends Context.orderly_initial with
    ⟨classes, known, found, identified, orderly⟩ | ⟨fault, known, stopped, far, -⟩
  · simp only [found]
    rcases reports_end readable running fit used identified orderly with
      ⟨all, reported, each⟩ | ⟨before, fault, stopped, rfl, far⟩
    · rw [recoverClasses_of_reports reported]
      exact .inl ⟨classes, known, all, rfl, rfl, each⟩
    · rw [recoverClasses_of_fault stopped]
      exact .inr ⟨rfl, far⟩
  · obtain ⟨rfl, far⟩ := far
    rw [stopped]
    exact .inr ⟨rfl, far⟩

omit readable running fit in
/-- **Malformed classes are isolated.**  Every class that discovery finds has one report, in the
    order in which they were found.  A report has an error, and then says nothing of vtables,
    exactly if a malformed class can be reached from its class; these are the reports that count as
    failed.  Only a search for a target that no pointer can hold ends the analysis without a
    result. -/
theorem malformed_isolated (job : Job) (abi : job.image.followsItaniumAbi = true)
    (readable : job.image.order.Known) (running : job.cancelled = false) (fit : job.limits.Fit)
    (named : job.limits.typeInfoSymbolPrefix.isSome = true)
    (answers : ∀ d ∈ job.detector, job.context.Answers d)
    (unfiltered : job.filter.filter (· ≠ "") = none) :
    (∃ classes known h, Recover.discover job.context .initial = .ok classes known ∧
      job.run.1 = .ok h ∧ List.Forall₂ job.context.Reported classes h.classes ∧
      h.failed.Sublist h.classes ∧
      ∀ report ∈ h.classes, report ∈ h.failed ↔
        ∃ c, job.context.Reaches ⟨report.address, report.kind⟩ c ∧ job.context.Rejects c) ∨
    job.run.1 = .error .targetRange ∧ ¬ job.context.InRange := by
  refine (run_ends readable running fit abi named answers).imp_left ?_
  rintro ⟨classes, known, all, chosen, result, each⟩
  obtain ⟨discovered, k, found, kept⟩ := of_bind_ok chosen
  rw [keep, unfiltered] at kept
  cases kept
  refine ⟨classes, known, job.hierarchyOf all, found, result, each, List.filter_sublist, ?_⟩
  -- Each report is the one of some class.
  have reported : ∀ report ∈ all, ∃ t, job.context.Reported t report := by
    clear chosen found result
    induction each with
    | nil => exact List.forall_mem_nil _
    | cons here _ ih => exact List.forall_mem_cons.mpr ⟨⟨_, here⟩, ih⟩
  intro report member
  obtain ⟨t, right⟩ := reported report member
  rw [right.about, ← right.error, Hierarchy.failed, List.mem_filter, decide_eq_true_iff]
  exact and_iff_right member

end Job

/-! ### A program with a malformed class -/

/-- The data of a program with three classes.  The base pointer of the second leads to a name and
    not to a class; the third derives from the second. -/
def Block.sampleBroken : Block where
  name := ".data"
  start := 0x400000
  data := ⟨(([0x500010, 0x400040, 0x500110, 0x400043, 0x400040, 0x500110, 0x400046, 0x400010] :
      List Nat).flatMap (littleBytes 8) ++ [0x31, 0x41, 0, 0x31, 0x42, 0, 0x31, 0x43, 0]).toArray⟩
  size := 73

/-- The analysis of that program. -/
def Job.sampleBroken : Job where
  image := { Image.sample with blocks := [.sampleBroken], ordered := List.pairwise_singleton _ _ }
  demangle := fun _ => none
  detector := some (.ofTable [])

/-- The base descriptors of the second class are malformed, and the third class reaches it, but not
    the first. -/
theorem Context.reaches_sampleBroken :
    Job.sampleBroken.context.Rejects ⟨0x400010, .single⟩ ∧
      Job.sampleBroken.context.Reaches ⟨0x400028, .single⟩ ⟨0x400010, .single⟩ ∧
      Job.sampleBroken.context.WellFormed ⟨0x400000, .simple⟩ := by
  let ctx := Job.sampleBroken.context
  have second : (TypeInfo.readBases ctx ⟨0x400010, .single⟩).run' .initial = none := by
    decide +kernel
  have third : (TypeInfo.readBases ctx ⟨0x400028, .single⟩).run' .initial =
      some [{ target := ⟨0x400010, .single⟩ }] := by decide +kernel
  refine ⟨?_, ?_, ?_⟩
  · have either := @fresh_or_rejects ctx trivial rfl Limits.fit_default ⟨0x400010, .single⟩
    -- Its bases cannot be read, and the only other way to end is to be rejected.
    refine either.resolve_left fun fresh => ?_
    obtain ⟨bases, read⟩ := fresh
    cases second.symm.trans (run'_eq_some_iff.mpr read)
  · exact Reaches.self.base (run'_eq_some_iff.mp third) (List.mem_singleton_self _)
  · have closed : ctx.closed [⟨0x400000, .simple⟩] = true := by decide +kernel
    intro c reached
    exact wellFormed_of_closed closed (List.mem_singleton_self _) reached

/-- The second and the third class are reported with an error, the first is not. -/
theorem Job.malformed_isolated_sample : ∃ h, Job.sampleBroken.run.1 = .ok h ∧
    h.classes.map (fun report => (report.address, report.kind)) =
      [(0x400000, .simple), (0x400010, .single), (0x400028, .single)] ∧
    ∀ report ∈ h.classes, report ∈ h.failed ↔ report.address ≠ 0x400000 := by
  have ran : (sampleBroken.run.1.toOption.map fun h => h.classes.map fun report =>
      (report.address, report.kind)) =
      some [(0x400000, .simple), (0x400010, .single), (0x400028, .single)] := by decide +kernel
  obtain ⟨h, result, listed⟩ := Option.map_eq_some_iff.mp ran
  have result : sampleBroken.run.1 = .ok h := toOption_eq_some_iff.mp result
  rcases malformed_isolated sampleBroken (by decide +kernel) trivial rfl Limits.fit_default rfl
    (fun d given f _ => by cases Option.mem_some_iff.mp given; exact ⟨_, rfl⟩) rfl with
    ⟨_, _, other, _, again, _, _, failed⟩ | ⟨stopped, _⟩
  · cases again.symm.trans result
    refine ⟨h, result, listed, fun report member => (failed report member).trans ?_⟩
    have found : (report.address, report.kind) ∈ h.classes.map fun r => (r.address, r.kind) :=
      List.mem_map_of_mem member
    -- Which classes fail is told by the theorem, for each class by its address.
    obtain ⟨rejects, reaches, wellFormed⟩ := Context.reaches_sampleBroken
    simp only [listed, List.mem_cons, Prod.mk.injEq, List.not_mem_nil, or_false] at found
    rcases found with ⟨address, kind⟩ | ⟨address, kind⟩ | ⟨address, kind⟩
    · rw [address, kind]
      refine iff_of_false ?_ fun other => other rfl
      rintro ⟨c, reached, what, after, stopped⟩
      obtain ⟨bases, before, read⟩ := wellFormed reached
      cases read.symm.trans stopped
    · rw [address, kind]
      exact iff_of_true ⟨_, .self, rejects⟩ (by decide)
    · rw [address, kind]
      exact iff_of_true ⟨_, reaches, rejects⟩ (by decide)
  · cases stopped.symm.trans result

end ItaniumRtti
