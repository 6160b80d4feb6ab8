import ItaniumRtti.Proofs.Discovery
import ItaniumRtti.Proofs.Sound

namespace ItaniumRtti

/-!
# Analyses of classes are independent

The analyses of a program's classes share what they learn: names that were marked, bases, vtables
and stores that were found.  None of them can tell.

* `TypeInfo.reportAlone?` — the report of a class that is analysed first, with nothing known;
* `TypeInfo.report_alone` — a class is reported from any sound knowledge as it is alone;
* `Job.reports_independent` — so the classes of a program may be reported in any order.
-/

open Recover

/-- The faults that may end the analysis of a class in a readable program. -/
def Fault.OfClass (fault : Fault) : Prop :=
  (∃ what, fault = .malformed what) ∨ fault = .targetRange

/-- The report of a class that is analysed first, with nothing known; none if a fault other than a
    malformed class prevents it. -/
def TypeInfo.reportAlone? (ctx : Context) (detector : Option Detector) (t : TypeInfo) :
    Option ClassReport :=
  (t.report ctx detector).run' .initial

/-- No search in the analysis of `t` is for a target that no pointer can hold: such searches, and
    nothing else, end with this fault. -/
def Context.SearchesFit (ctx : Context) (detector : Option Detector) (t : TypeInfo) : Prop :=
  ∀ after, t.report ctx detector .initial ≠ .error .targetRange after

/-- **A class is reported as it is alone.**  From sound knowledge the report of a class is the one
    that it has when it is analysed first. -/
theorem TypeInfo.report_alone {ctx : Context} {detector : Option Detector}
    (apart : ctx.NamesApart) (readable : ctx.image.order.Known) (running : ctx.cancelled = false)
    (fit : ctx.limits.Fit) (answers : ∀ d ∈ detector, ctx.Answers d) {t : TypeInfo}
    (identified : ctx.Identified t) (searches : ctx.SearchesFit detector t) {known : Knowledge}
    (sound : ctx.Sound detector known) :
    ∃ report after, t.reportAlone? ctx detector = some report ∧
      t.report ctx detector known = .ok report after ∧ ctx.Sound detector after := by
  have tolerates := Context.tolerates readable running fit Fault.OfClass
  have sim := Context.soundReports apart tolerates (fun what => .inl ⟨what, rfl⟩) (.inr rfl)
    running answers
  rcases (sim.report identified known .initial ⟨sound, Context.sound_initial⟩).cases with
    ⟨report, after, before, here, alone, -, still, -⟩ | ⟨fault, _, before, _, alone, allowed, _⟩
  · replace alone : t.report ctx detector .initial = .ok report before := alone
    exact ⟨report, after, run'_eq_some_iff.mpr ⟨before, alone⟩, here, still⟩
  -- Reports catch malformed classes, and no search is for a target out of range.
  · rcases allowed with ⟨⟨what, rfl⟩ | rfl, uncaught⟩
    · exact absurd rfl (uncaught what)
    · exact absurd alone (searches before)

namespace Job

/-- Discovery leaves sound knowledge and finds classes that recognition finds. -/
theorem sound_of_discover {ctx : Context} {detector : Option Detector} (apart : ctx.NamesApart)
    {classes : List TypeInfo} {known : Knowledge}
    (found : Recover.discover ctx .initial = .ok classes known) :
    ctx.Sound detector known ∧ ∀ t ∈ classes, ctx.Identified t := by
  have sim := Context.soundNaming detector apart (tolerates_any ctx)
  have ends := sim.discover (fun _ _ => trivial) (fun _ _ => .inl trivial) .initial .initial
    ⟨Context.sound_initial, Context.sound_initial⟩
  rcases ends.cases with ⟨_, _, _, here, -, good, still, -⟩ | ⟨_, _, _, here, -⟩
  · rw [found] at here
    cases here
    exact ⟨still, good⟩
  · rw [found] at here
    cases here

/-- **Analyses of classes do not depend on their order.**  If the names of classes do not overlap,
    nobody stops the analysis, the detector answers for every function and no search is for a
    target that no pointer can hold, then the classes of a program, analysed in any order with
    shared knowledge, have exactly the reports that they have alone and with nothing known. -/
theorem reports_independent (ctx : Context) (detector : Option Detector) (apart : ctx.NamesApart)
    (readable : ctx.image.order.Known) (running : ctx.cancelled = false) (fit : ctx.limits.Fit)
    (answers : ∀ d ∈ detector, ctx.Answers d) {classes : List TypeInfo} {known : Knowledge}
    (found : Recover.discover ctx .initial = .ok classes known)
    (searches : ∀ t ∈ classes, ctx.SearchesFit detector t) (order : List TypeInfo)
    (discovered : ∀ t ∈ order, t ∈ classes) :
    ∃ alone : List ClassReport, order.map (·.reportAlone? ctx detector) = alone.map some ∧
      reports ctx detector order known = (alone, none) := by
  obtain ⟨sound, identified⟩ : ctx.Sound detector known ∧ ∀ t ∈ classes, ctx.Identified t :=
    sound_of_discover apart found
  clear found
  -- By induction on the order: after each report, knowledge is sound again.
  induction order generalizing known with
  | nil => exact ⟨[], rfl, rfl⟩
  | cons t rest ih =>
    obtain ⟨first, others⟩ := List.forall_mem_cons.mp discovered
    obtain ⟨report, after, alone, here, still⟩ := TypeInfo.report_alone apart readable running fit
      answers (identified t first) (searches t first) sound
    obtain ⟨more, separate, shared⟩ := ih others still
    refine ⟨report :: more, ?_, ?_⟩
    · rw [List.map_cons, List.map_cons, alone, separate]
    · rw [reports, here]
      dsimp only
      rw [shared]

end Job

/-! ### The small program -/

/-- Recognition finds the two classes of the small program, and no other. -/
theorem Context.identified_sample {t : TypeInfo} (identified : Context.sample.Identified t) :
    t = ⟨0x400000, .simple⟩ ∨ t = ⟨0x400010, .single⟩ := by
  have tidy : Image.sample.Tidy := by decide
  rcases Roots.cases_of_identify identified with ⟨r, kind, present, -⟩ | ⟨point, listed, resolved⟩
  · cases present
  have read : Image.sample.readPointer t.address = .ok (some point.1) := resolved
  have nonzero : ∀ p ∈ Context.sample.roots.points, p.1 ≠ 0 := by decide
  have data : ∀ b ∈ Image.sample.blocks, b.initialized = true → b.executable = false := by decide
  -- The word is stored in the data, where a search finds it.
  obtain ⟨b, found, -⟩ := Image.blockAt?_of_readInt read
  have initialized := Image.initialized_of_readPointer found read (nonzero point listed)
  obtain ⟨member, covers⟩ := Image.mem_of_blockAt? found
  have hit : ∀ pattern hits, Image.sample.referencePattern point.1 = .ok pattern →
      Image.sample.findBytes false pattern Image.sample.dataRanges = .ok hits → t.address ∈ hits :=
    fun pattern hits written searched => (Image.mem_hits_iff tidy written searched _).mpr
      ⟨b, member, covers, data b member initialized, initialized, read⟩
  have is : Context.sample.roots.identify .sample t.address = .ok (some t) := identified
  rcases List.mem_cons.mp listed with rfl | later
  · have here := hit (littleBytes 8 0x500010) [0x400000] (by decide) (by decide +kernel)
    rw [List.mem_singleton.mp here] at is
    have base : Context.sample.roots.identify .sample 0x400000 =
      .ok (some ⟨0x400000, .simple⟩) := by decide +kernel
    exact .inl (Option.some.inj (Except.ok.inj (is.symm.trans base)))
  · cases List.mem_singleton.mp later
    have here := hit (littleBytes 8 0x500110) [0x400010] (by decide) (by decide +kernel)
    rw [List.mem_singleton.mp here] at is
    have derived : Context.sample.roots.identify .sample 0x400010 =
      .ok (some ⟨0x400010, .single⟩) := by decide +kernel
    exact .inr (Option.some.inj (Except.ok.inj (is.symm.trans derived)))

/-- The names of its classes stand one after the other. -/
theorem Context.namesApart_sample : Context.sample.NamesApart := by
  -- There are two classes, and so two names.
  have named : ∀ {t m}, Context.sample.Identified t → Context.sample.Names t m →
      m = ⟨0x400050, 3, "1A"⟩ ∨ m = ⟨0x400053, 3, "1B"⟩ := by
    rintro t m identified ⟨place, string⟩
    have base : TypeInfo.nameAddress .sample ⟨0x400000, .simple⟩ = .ok (some 0x400050) ∧
        Image.sample.stringAt? 0x400050 = some ⟨0x400050, 3, "1A"⟩ := by decide +kernel
    have derived : TypeInfo.nameAddress .sample ⟨0x400010, .single⟩ = .ok (some 0x400053) ∧
        Image.sample.stringAt? 0x400053 = some ⟨0x400053, 3, "1B"⟩ := by decide +kernel
    rcases identified_sample identified with rfl | rfl
    · rw [← Option.some.inj (Except.ok.inj (base.1.symm.trans place))] at string
      exact .inl (Option.some.inj (string.symm.trans base.2))
    · rw [← Option.some.inj (Except.ok.inj (derived.1.symm.trans place))] at string
      exact .inr (Option.some.inj (string.symm.trans derived.2))
  intro s t m n first second called called'
  rcases named first called with rfl | rfl
  · rcases named second called' with rfl | rfl <;> decide
  · rcases named second called' with rfl | rfl <;> decide

/-- A detector for the small program: its function stores the address point of the vtable. -/
def Detector.sample : Detector :=
  .ofTable [(0x600000, [{ site := 0x600000, value := 0x400038 }])]

/-- The classes of the small program are reported alike when the derived class comes first. -/
theorem Job.reports_independent_sample : ∃ known alone,
    Recover.discover .sample .initial = .ok [⟨0x400000, .simple⟩, ⟨0x400010, .single⟩] known ∧
      [(⟨0x400010, .single⟩ : TypeInfo), ⟨0x400000, .simple⟩].map
        (·.reportAlone? .sample (some .sample)) = alone.map some ∧
      reports .sample (some .sample) [⟨0x400010, .single⟩, ⟨0x400000, .simple⟩] known =
        (alone, none) := by
  have discovery : (Recover.discover .sample).run' .initial =
      some [⟨0x400000, .simple⟩, ⟨0x400010, .single⟩] := by decide +kernel
  obtain ⟨known, found⟩ := run'_eq_some_iff.mp discovery
  -- A report is given for each class, so no search has failed.
  have reported : ∀ t ∈ [(⟨0x400000, .simple⟩ : TypeInfo), ⟨0x400010, .single⟩],
      (t.reportAlone? .sample (some .sample)).isSome = true := by decide +kernel
  obtain ⟨alone, separate, shared⟩ := reports_independent .sample (some .sample)
    Context.namesApart_sample trivial rfl Limits.fit_default
    (fun d given f _ => by cases Option.mem_some_iff.mp given; exact ⟨_, rfl⟩) found
    (fun t member after stopped => by
      obtain ⟨report, answer⟩ := Option.isSome_iff_exists.mp (reported t member)
      obtain ⟨before, alone⟩ := run'_eq_some_iff.mp answer
      rw [stopped] at alone
      cases alone)
    [⟨0x400010, .single⟩, ⟨0x400000, .simple⟩] (by decide)
  exact ⟨known, alone, found, separate, shared⟩

end ItaniumRtti
