import ItaniumRtti.Proofs.Discovery
import ItaniumRtti.Proofs.Simulation.Discovery
import ItaniumRtti.Proofs.Simulation.Report

namespace ItaniumRtti

/-!
# Position-independent programs

In a position-independent program every word that holds a pointer is relocated to the pointer it
holds; in a position-dependent one none is.  The analysis gives the same results either way.

* `Image.rebase` — the image with a relocation added to each of some words;
* `Context.HoldsPointer` — a word that is not relocated and cannot be taken for an offset;
* `Context.readsAlike_rebase` — no way of reading words notices the relocations added to them;
* `Job.rebase_run` — nor does an analysis.
-/

/-! ### Searches -/

namespace Context

variable {ctx : Context} {relocations : Std.TreeMap Int Relocation}

/-- A word is a reference to a target in both images or in neither. -/
theorem mem_referencesAmong_iff (tidy : ctx.image.Tidy) {address target : Int}
    (word : ctx.KeepsWord relocations address) {cancelled : Bool} {pattern : List UInt8}
    {hits : List Int} (written : ctx.image.referencePattern target = .ok pattern)
    (found : ctx.image.findBytes cancelled pattern ctx.image.dataRanges = .ok hits)
    (alignment : Int) :
    address ∈ (ctx.withRelocations relocations).image.referencesAmong hits target alignment ↔
      address ∈ ctx.image.referencesAmong hits target alignment := by
  rw [Image.mem_referencesAmong, Image.mem_referencesAmong]
  refine and_congr_right fun _ => ?_
  show (address ∈ hits ∧ relocations[address]? = none ∨
    ∃ r, relocations[address]? = some r ∧ ctx.image.relocatesTo target address r = true) ↔ _
  -- A word that keeps its relocation is found in the same way.
  cases word with
  | same unchanged => rw [unchanged]
  | rebased stored type plain added read nonzero large =>
    -- A word with an added relocation was a hit before, and is found by its relocation now.
    obtain ⟨b, holds, -⟩ := Image.blockAt?_of_readInt read
    have initialized := Image.initialized_of_readPointer holds read fun zero => nonzero (by
      rw [Int.natCast_eq_zero.mp zero, signedValue_zero])
    have covers := Image.mem_of_blockAt? holds
    rw [added, plain, Image.mem_hits_iff tidy written found, read]
    simp only [reduceCtorEq, and_false, false_or, Option.some.injEq, exists_eq_left', and_true,
      false_and, exists_false, or_false, Image.relocatesTo, Image.relocated?, holds,
      Option.any_some, Bool.and_eq_true, Bool.not_eq_true', beq_iff_eq, Except.ok.injEq]
    constructor
    · rintro ⟨data, leads⟩
      exact ⟨b, covers.1, covers.2, data, initialized, leads⟩
    · rintro ⟨c, member, within, data, -, leads⟩
      have same := (Image.blockAt?_eq_some_iff tidy).mpr ⟨member, within⟩
      cases holds.symm.trans same
      exact ⟨data, leads⟩

/-- Relocations that keep every word are noticed by no reference search either. -/
theorem readsAlike_of_keepsWord (tidy : ctx.image.Tidy)
    (word : ∀ address, ctx.KeepsWord relocations address) : ctx.ReadsAlike relocations where
  word := word
  references cancelled target := by
    have nonzero : ctx.image.ptr ≠ 0 := ne_of_gt ctx.image.ptr_pos
    rw [Image.findReferences_eq nonzero, Image.findReferences_eq nonzero]
    show (ctx.image.referencePattern target).bind (fun pattern =>
      (ctx.image.findBytes cancelled pattern ctx.image.dataRanges).bind fun hits => _) = _
    cases written : ctx.image.referencePattern target with
    | error fault => rfl
    | ok pattern =>
      show (ctx.image.findBytes cancelled pattern ctx.image.dataRanges).bind _ =
        (ctx.image.findBytes cancelled pattern ctx.image.dataRanges).bind _
      -- The bytes are the same, so both searches have the same hits to start from.
      cases found : ctx.image.findBytes cancelled pattern ctx.image.dataRanges with
      | error fault => rfl
      | ok hits =>
        have same := Image.addressSet_congr fun address =>
          mem_referencesAmong_iff tidy (word address) written found ctx.image.ptr
        show (if cancelled = true then _ else _) = (if cancelled = true then _ else _)
        rw [same]

end Context

/-! ### Added relocations -/

namespace Image

variable (img : Image) (type : Int → Int)

/-- The relocations with one added to the word at `address`, to the pointer that it holds. -/
def relocateWord (relocations : Std.TreeMap Int Relocation) (address : Int) :
    Std.TreeMap Int Relocation :=
  match img.readPointer address with
  | .ok (some stored) => relocations.insert address { addend := stored, type := type address }
  | _ => relocations

/-- The image with a relocation added to each of `words`: without symbol, to the pointer that the
    word holds, and of some machine-specific type.  No byte changes. -/
def rebase (words : List Int) : Image :=
  img.withRelocations (words.foldl (img.relocateWord type) img.relocations)

variable {img type}

/-- Other words keep their relocations. -/
theorem getElem?_relocateWord_ne {relocations : Std.TreeMap Int Relocation} {address word : Int}
    (other : address ≠ word) :
    (img.relocateWord type relocations word)[address]? = relocations[address]? := by
  rw [relocateWord]
  split
  · rw [Std.TreeMap.getElem?_insert, if_neg]
    intro same
    exact other (Std.compare_eq_iff_eq.mp same).symm
  · rfl

/-- The word is relocated to the pointer that it holds. -/
theorem getElem?_relocateWord_self {relocations : Std.TreeMap Int Relocation} {address stored : Int}
    (read : img.readPointer address = .ok (some stored)) :
    (img.relocateWord type relocations address)[address]? =
      some { addend := stored, type := type address } := by
  rw [relocateWord, read]
  exact Std.TreeMap.getElem?_insert_self

/-- Words to which nothing is added keep their relocations. -/
theorem relocationAt?_rebase_of_not_mem {words : List Int} {address : Int}
    (other : address ∉ words) :
    (img.rebase type words).relocationAt? address = img.relocationAt? address := by
  have kept : ∀ relocations : Std.TreeMap Int Relocation,
      (words.foldl (img.relocateWord type) relocations)[address]? = relocations[address]? := by
    induction words with
    | nil => exact fun _ => rfl
    | cons word rest ih =>
      intro relocations
      rw [List.foldl_cons, ih (List.not_mem_of_not_mem_cons other),
        getElem?_relocateWord_ne (List.ne_of_not_mem_cons other)]
  exact kept img.relocations

/-- The other words are relocated to the pointers they hold. -/
theorem relocationAt?_rebase_of_mem {words : List Int} {address stored : Int}
    (member : address ∈ words) (read : img.readPointer address = .ok (some stored)) :
    (img.rebase type words).relocationAt? address =
      some { addend := stored, type := type address } := by
  -- Words may be listed more than once, so the invariant allows for one that is relocated already.
  have added : ∀ (words : List Int) (relocations : Std.TreeMap Int Relocation), address ∈ words ∨
        relocations[address]? = some { addend := stored, type := type address } →
      (words.foldl (img.relocateWord type) relocations)[address]? =
        some { addend := stored, type := type address } := by
    intro words
    induction words with
    | nil => exact fun _ either => either.resolve_left List.not_mem_nil
    | cons word rest ih =>
      intro relocations either
      rw [List.foldl_cons]
      apply ih
      by_cases here : address = word
      · subst here
        exact .inr (getElem?_relocateWord_self read)
      · rw [getElem?_relocateWord_ne here]
        exact either.imp_left fun present => (List.mem_cons.mp present).resolve_left here
  exact added words img.relocations (.inl member)

end Image

namespace Context

/-- A word that is not relocated and holds a pointer: read as a signed number it is too large for
    an offset. -/
structure HoldsPointer (ctx : Context) (address : Int) : Prop where
  /-- It is not relocated. -/
  plain : ctx.image.relocationAt? address = none
  /-- It can be read, and its magnitude exceeds that of offsets. -/
  large : ∃ value, ctx.image.readInt address ctx.image.ptr true = .ok (some value) ∧
    ctx.limits.maxOffsetToTop.exceededBy value.natAbs = .ok true

instance (ctx : Context) (address : Int) : Decidable (ctx.HoldsPointer address) :=
  decidable_of_iff (ctx.image.relocationAt? address = none ∧
      (match ctx.image.readInt address ctx.image.ptr true with
        | .ok (some value) => decide (ctx.limits.maxOffsetToTop.exceededBy value.natAbs = .ok true)
        | _ => false) = true) <| by
    constructor
    · rintro ⟨plain, large⟩
      split at large
      · next value read => exact ⟨plain, value, read, of_decide_eq_true large⟩
      · cases large
    · rintro ⟨plain, value, read, large⟩
      rw [read]
      exact ⟨plain, decide_eq_true large⟩

variable {ctx : Context}

/-- What a word that holds a pointer stores. -/
theorem HoldsPointer.stored {address : Int} (holds : ctx.HoldsPointer address) :
    ∃ stored : Nat, ctx.image.readPointer address = .ok (some (stored : Int)) ∧
      ctx.limits.maxOffsetToTop.exceededBy
        (signedValue ctx.image.width.bytes stored).natAbs = .ok true := by
  obtain ⟨value, read, large⟩ := holds.large
  rw [ctx.image.readInt_signed] at read
  cases unsigned : ctx.image.readInt address ctx.image.ptr false with
  | error fault =>
    rw [unsigned] at read
    cases read
  | ok word =>
    rw [unsigned] at read
    -- Both readings are of one number, which is not negative.
    obtain ⟨n, rfl, rfl⟩ := Option.map_eq_some_iff.mp (Except.ok.inj read)
    obtain ⟨positive, -⟩ := Image.readPointer_bounds unsigned
    refine ⟨n.toNat, ?_, large⟩
    rw [Int.toNat_of_nonneg positive]
    exact unsigned

/-- **Rebasing is not noticed.**  If zero counts as an offset, relocations added to words that hold
    pointers leave every way of reading words as it was. -/
theorem readsAlike_rebase (tidy : ctx.image.Tidy)
    (zero : ctx.limits.maxOffsetToTop.exceededBy 0 = .ok false) (type : Int → Int)
    {words : List Int} (pointers : ∀ a ∈ words, ctx.HoldsPointer a) :
    ctx.ReadsAlike (ctx.image.rebase type words).relocations := by
  refine readsAlike_of_keepsWord tidy fun address => ?_
  by_cases member : address ∈ words
  · obtain ⟨stored, read, large⟩ := (pointers address member).stored
    refine .rebased stored (type address) (pointers address member).plain
      (Image.relocationAt?_rebase_of_mem member read) read (fun none => ?_) large
    -- A stored zero would be an offset.
    rw [none, Int.natAbs_zero] at large
    cases zero.symm.trans large
  · exact .same (Image.relocationAt?_rebase_of_not_mem member)

end Context

/-! ### Equal questions -/

open Recover

namespace Context.ReadsAlike

variable {ctx : Context} {relocations : Std.TreeMap Int Relocation}

/-- The name at an address is read in the same way. -/
theorem typeNameAt (alike : ctx.ReadsAlike relocations) (address : Int) :
    Recover.typeNameAt ctx address =
      Recover.typeNameAt (ctx.withRelocations relocations) address := by
  rw [Recover.typeNameAt, Recover.typeNameAt, alike.resolve]
  rfl

/-- So are the names of classes, which are kept in the same cells. -/
theorem naming (alike : ctx.ReadsAlike relocations) : Naming ctx relocations .same Any where
  reads := alike
  tolerates := tolerates_any ctx
  good _ := trivial
  meet {_ _ _ t} _ related := congrArg (Knowledge.meet · t) related
  typeNameAt {t} _ := .of_eq (alike.typeNameAt t.address)
  nameCell {t} form _ same := by
    rw [TypeInfo.nameAs, TypeInfo.nameAs, same.eq]
    exact .of_eq rfl
  nameOf {t} _ := by
    rw [nameOf, nameOf, TypeInfo.typeName, TypeInfo.typeName, alike.typeNameAt]
    exact .of_eq rfl

/-- So are the bases. -/
theorem locating (alike : ctx.ReadsAlike relocations) :
    Locating ctx relocations .same Any Any where
  toNaming := alike.naming
  toFollowing := alike.naming.following (fun _ => trivial) fun {t} _ same => by
    rw [TypeInfo.bases, TypeInfo.bases, same.eq]
    exact Alike.mono (P := Any) (fun _ _ _ _ => trivial) (.of_eq rfl)
  virtualCell {t} _ same := by
    rw [TypeInfo.virtualBases, TypeInfo.virtualBases, same.eq]
    exact Alike.mono (P := Any) (fun _ _ _ _ => trivial) (.of_eq rfl)
  named _ := trivial

/-- Words read alike make all questions the same, whatever is known. -/
theorem simulation (alike : ctx.ReadsAlike relocations) :
    Simulation ctx relocations .same Any Any fun _ => Any where
  toLocating := alike.locating
  again _ _ := trivial
  vtable {t} _ := by
    have same := (alike.locating.locateVtable (t := t) trivial (.inl trivial)).eq
    rw [TypeInfo.vtable, TypeInfo.vtable, same]
    exact .of_eq rfl
  serves _ _ := Vtable.serves_any
  searchable _ _ _ _ := .inl trivial
  vttCell {t} _ same := by
    rw [TypeInfo.vtt, TypeInfo.vtt, same.eq]
    exact .of_eq rfl

/-- The index of stores does not read relocations. -/
theorem functionsStoring_withRelocations (ctx : Context) (relocations : Std.TreeMap Int Relocation)
    (detector : Detector) (values : List Int) :
    functionsStoring (ctx.withRelocations relocations) detector values =
      functionsStoring ctx detector values := by
  -- The functions are examined one by one, each by the detector alone.
  have examined : ∀ functions : List Function,
      examine (ctx.withRelocations relocations) detector functions =
        examine ctx detector functions := by
    intro functions
    induction functions with
    | nil => rfl
    | cons f rest ih =>
      rw [examine, examine, ih]
      rfl
  rw [functionsStoring, functionsStoring, indexStores, indexStores, examined]
  rfl

/-- All that goes into a report is found in the same way. -/
theorem reportSimulation (alike : ctx.ReadsAlike relocations) (detector : Option Detector) :
    ReportSimulation ctx relocations .same Any Any (fun _ => Any) Any detector where
  toSimulation := alike.simulation
  storesOf _ _ _ _ := .of_eq rfl
  functionsStoring d _ values := by
    rw [functionsStoring_withRelocations]
    exact Alike.mono (P := Any) (fun _ _ _ _ => trivial) (.of_eq rfl)

/-! ### Detected stores -/

/-- A move makes the same known. -/
theorem afterMove (alike : ctx.ReadsAlike relocations) (f : Facts) (i : Instruction)
    (register : String) (source : Operand) :
    f.afterMove (ctx.withRelocations relocations).image i register source =
      f.afterMove ctx.image i register source := by
  rw [Facts.afterMove.eq_def, Facts.afterMove.eq_def, alike.resolve]
  rfl

/-- So does every instruction. -/
theorem step (alike : ctx.ReadsAlike relocations) (f : Facts) (i : Instruction) :
    f.step (ctx.withRelocations relocations).image i = f.step ctx.image i := by
  rw [Facts.step, Facts.step]
  simp only [alike.afterMove]
  rfl

/-- The same stores are found in a run of instructions. -/
theorem stores (alike : ctx.ReadsAlike relocations) (f : Facts) (run : List Instruction) :
    f.stores (ctx.withRelocations relocations).image run = f.stores ctx.image run := by
  induction run generalizing f with
  | nil => rfl
  | cons i rest ih =>
    rw [Facts.stores, Facts.stores, alike.step]
    simp only [ih]

/-- The same detector is made from the same listing. -/
theorem detector (alike : ctx.ReadsAlike relocations) (listing : Listing) (maxSize : Bound) :
    (ctx.withRelocations relocations).image.detector listing maxSize =
      ctx.image.detector listing maxSize := by
  have storesIn : (ctx.withRelocations relocations).image.storesIn listing maxSize =
      ctx.image.storesIn listing maxSize := by
    funext f
    rw [Image.storesIn, Image.storesIn]
    simp only [alike.stores]
    rfl
  rw [Image.detector, Image.detector, storesIn]
  rfl

end Context.ReadsAlike

/-! ### Analyses -/

namespace Job

/-- Classes that are reported alike one by one are reported alike in a row. -/
theorem reports_congr {ctx ctx' : Context} {detector : Option Detector}
    (same : ∀ t : TypeInfo, t.report ctx' detector = t.report ctx detector)
    (classes : List TypeInfo) (known : Knowledge) :
    reports ctx' detector classes known = reports ctx detector classes known := by
  induction classes generalizing known with
  | nil => rfl
  | cons t rest ih =>
    rw [reports, reports, same]
    cases t.report ctx detector known with
    | ok report after =>
      dsimp only
      rw [ih]
    | error fault after => rfl

/-- The job for the same program with relocations added to `words`. -/
def rebase (job : Job) (type : Int → Int) (words : List Int) : Job :=
  { job with image := job.image.rebase type words }

/-- The job with a detector for the image's own code. -/
def examining (job : Job) (listing : Listing) : Job :=
  { job with detector := (job.image.detector listing job.limits.maxFunctionSize).toOption }

variable {job : Job} {type : Int → Int} {words : List Int}

/-- The own detector of a job does not notice the added relocations. -/
theorem examining_rebase
    (alike : job.context.ReadsAlike (job.image.rebase type words).relocations)
    (listing : Listing) :
    (job.rebase type words).examining listing = (job.examining listing).rebase type words := by
  have same : (job.image.rebase type words).detector listing job.limits.maxFunctionSize =
      job.image.detector listing job.limits.maxFunctionSize :=
    alike.detector listing job.limits.maxFunctionSize
  rw [examining, examining, rebase, rebase, same]

/-- The result of a run is the same. -/
theorem run_rebase
    (alike : job.context.ReadsAlike (job.image.rebase type words).relocations) :
    (job.rebase type words).run = job.run := by
  have sim := alike.simulation
  -- The three parts of a run: discovery, the filter, and the reports.
  have discovered : Recover.discover (job.rebase type words).context =
      Recover.discover job.context :=
    (sim.discover (fun _ _ => trivial) fun _ _ => .inl trivial).eq.symm
  have kept : ∀ classes,
      keep (job.rebase type words).context (job.rebase type words).filter classes =
        keep job.context job.filter classes :=
    fun classes => (sim.keep job.filter classes fun _ _ => trivial).eq.symm
  have recovered : ∀ classes known, (job.rebase type words).recoverClasses classes known =
      job.recoverClasses classes known := by
    intro classes known
    have same : ∀ (detector : Option Detector) (t : TypeInfo),
        t.report (job.rebase type words).context detector = t.report job.context detector := by
      intro detector t
      exact ((alike.reportSimulation detector).report (t := t) trivial).eq.symm
    rw [recoverClasses, recoverClasses, reports_congr (same _)]
    rfl
  rw [run, run]
  simp only [discovered, kept, recovered]
  rfl

/-- **Position-independent and position-dependent programs are analysed alike.**  In a tidy image,
    with zero among the offsets, relocations added to words that hold pointers change no answer
    about classes, whatever is known already, and no part of the result of an analysis. -/
theorem analysis_rebase (job : Job) (tidy : job.image.Tidy)
    (zero : job.limits.maxOffsetToTop.exceededBy 0 = .ok false) (type : Int → Int)
    (words : List Int) (pointers : ∀ a ∈ words, job.context.HoldsPointer a) :
    let before := job.context
    let after := (job.rebase type words).context
    Recover.discover after = Recover.discover before ∧
    (∀ t : TypeInfo, t.bases after = t.bases before ∧
      t.virtualBases after = t.virtualBases before ∧ t.vtable after = t.vtable before ∧
      t.vtt after = t.vtt before ∧ t.isAbstract after = t.isAbstract before) ∧
    (∀ cancelled within name, Recover.findTypeInfo after cancelled within name =
      Recover.findTypeInfo before cancelled within name) ∧
    (∀ listing maxSize, after.image.detector listing maxSize =
      before.image.detector listing maxSize) ∧
    (∀ (t : TypeInfo) (v : Vtable) (vtt : Option Vtt) (candidates : List Function)
      (detector : Detector), t.correlate after v vtt candidates detector =
        t.correlate before v vtt candidates detector) ∧
    (job.rebase type words).run = job.run ∧
    (∀ listing, ((job.rebase type words).examining listing).run =
      (job.examining listing).run) := by
  have alike : job.context.ReadsAlike (job.image.rebase type words).relocations :=
    Context.readsAlike_rebase tidy zero type pointers
  -- All answers are equal, since two equal states stay equal.
  have sim := alike.simulation
  refine ⟨(sim.discover (fun _ _ => trivial) fun _ _ => .inl trivial).eq.symm,
    fun t => ⟨?_, ?_, ?_, ?_, ?_⟩, ?_, ?_, ?_, run_rebase alike, ?_⟩
  · exact (sim.bases (t := t) trivial).eq.symm
  · exact (sim.virtualBases (t := t) trivial).eq.symm
  · exact (sim.vtable (t := t) trivial).eq.symm
  · exact (sim.vtt (t := t) trivial).eq.symm
  · exact (sim.isAbstract (t := t) trivial).eq.symm
  · intro cancelled within name
    exact (sim.findTypeInfo (fun _ => trivial) (fun _ => .inl trivial) within name).eq.symm
  · exact alike.detector
  · intro t v vtt candidates detector
    have reporting := alike.reportSimulation (some detector)
    have serves : v.Serves Any := Vtable.serves_any
    exact (reporting.correlate rfl (t := t) trivial serves vtt candidates
      fun _ _ => trivial).eq.symm
  · intro listing
    rw [examining_rebase alike]
    have examined : (job.examining listing).context.ReadsAlike
        ((job.examining listing).image.rebase type words).relocations := alike
    exact run_rebase examined

/-- The analysis of the small program. -/
def sample : Job where
  image := .sample
  demangle := fun _ => none
  detector := none

/-- In the small program the words of both type_info structures and of the vtable may be relocated
    to the pointers they hold. -/
theorem analysis_rebase_sample :
    let words : List Int :=
      [0x400000, 0x400008, 0x400010, 0x400018, 0x400020, 0x400030, 0x400038]
    (∀ a ∈ words, sample.context.HoldsPointer a) ∧
      (sample.rebase (fun _ => 8) words).run = sample.run := by
  intro words
  have pointers : ∀ a ∈ words, sample.context.HoldsPointer a := by decide +kernel
  obtain ⟨-, -, -, -, -, run, -⟩ :=
    analysis_rebase sample (by decide) rfl (fun _ => 8) words pointers
  exact ⟨pointers, run⟩

end Job

end ItaniumRtti
