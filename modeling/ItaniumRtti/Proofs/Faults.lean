import ItaniumRtti.Proofs.Search
import ItaniumRtti.Vtable.Vtt

namespace ItaniumRtti

/-!
# Faults of reading

Every way of reading a program stops only with faults that its byte order, the limits or a wish to
stop explain.

* `OnlyFaults` — a computation stops with faults of a given set only;
* `Limits.Fit` — limits that recovery can use;
* `Context.Tolerates` — a set of faults that covers all that reading words can meet;
* `Context.Searchable` — a target that may be searched for;
* `Context.Tolerates.readInt` and the lemmas after it — one for each way of reading.
-/

variable {α β : Type}

/-- If a computation after another succeeds, so does the first. -/
theorem of_except_bind_ok {first : Except Fault α} {next : α → Except Fault β} {b : β}
    (succeeds : (first >>= next) = .ok b) : ∃ a, first = .ok a ∧ next a = .ok b := by
  cases first with
  | ok a => exact ⟨a, rfl, succeeds⟩
  | error fault => cases succeeds

/-- If `answer` is a fault, it is one of `F`. -/
def OnlyFaults (F : Fault → Prop) (answer : Except Fault α) : Prop :=
  ∀ fault, answer = .error fault → F fault

namespace OnlyFaults

variable {F : Fault → Prop} {answer : Except Fault α}

theorem ok (a : α) : OnlyFaults F (.ok a) := by
  intro fault error
  cases error

/-- A fault of the set. -/
theorem error {fault : Fault} (allowed : F fault) :
    OnlyFaults F (.error fault : Except Fault α) := by
  intro fault error
  cases error
  exact allowed

theorem mono {G : Fault → Prop} (only : OnlyFaults F answer)
    (weaker : ∀ fault, F fault → G fault) : OnlyFaults G answer :=
  fun fault stops => weaker fault (only fault stops)

/-- A computation after another stops with a fault of the one or of the other. -/
theorem bind {f : α → Except Fault β} (first : OnlyFaults F answer)
    (second : ∀ a, OnlyFaults F (f a)) : OnlyFaults F (answer >>= f) := by
  intro fault stops
  cases answer with
  | error other =>
    cases stops
    exact first fault rfl
  | ok a => exact second a fault stops

/-- Whichever way a choice goes. -/
theorem ite {c : Prop} [Decidable c] {other : Except Fault α} (yes : OnlyFaults F answer)
    (no : OnlyFaults F other) : OnlyFaults F (if c then answer else other) := by
  split
  · exact yes
  · exact no

end OnlyFaults

/-- Limits that recovery can use: each is a number, and a whole one where something is tried a
    number of times. -/
structure Limits.Fit (limits : Limits) : Prop where
  /-- The most bases. -/
  baseCount : limits.maxBaseCount ≠ .unfit
  /-- The greatest offset. -/
  offsetToTop : limits.maxOffsetToTop ≠ .unfit
  /-- The most offset words. -/
  vcallOffsets : ∃ most, limits.maxVcallOffsets = .whole most
  /-- The most entries of a table of vtables. -/
  vttEntries : limits.maxVttEntries ≠ .unfit

/-- The limits that are used if nobody sets any can be used. -/
theorem Limits.fit_default : Limits.Fit {} where
  baseCount := by decide
  offsetToTop := by decide
  vcallOffsets := ⟨64, rfl⟩
  vttEntries := by decide

/-- The faults `F` cover all that reading words of the program can meet. -/
structure Context.Tolerates (ctx : Context) (F : Fault → Prop) : Prop where
  /-- A wish to stop. -/
  cancelled : ctx.cancelled = true → F .cancelled
  /-- An unknown byte order. -/
  byteOrder : ¬ ctx.image.order.Known → F .byteOrder
  /-- Limits of the wrong type. -/
  unfitLimit : ¬ ctx.limits.Fit → F .unfitLimit

/-- In a program of a known byte order, with limits that fit, reading words meets no fault at all
    while nobody stops it. -/
theorem Context.tolerates {ctx : Context} (readable : ctx.image.order.Known)
    (running : ctx.cancelled = false) (fit : ctx.limits.Fit) (F : Fault → Prop) :
    ctx.Tolerates F where
  cancelled stopped := by
    rw [running] at stopped
    cases stopped
  byteOrder unknown := absurd readable unknown
  unfitLimit unfit := absurd fit unfit

/-- A search for `target` meets only faults of `F`: a pointer can hold the target, unless the fault
    of searches for other targets is one of `F`. -/
def Context.Searchable (ctx : Context) (F : Fault → Prop) (target : Int) : Prop :=
  F .targetRange ∨ target < ctx.image.width.span

/-- Whatever is below a target that a pointer can hold can be held too. -/
theorem Context.Searchable.mono {ctx : Context} {F : Fault → Prop} {target lower : Int}
    (searchable : ctx.Searchable F target) (below : lower ≤ target) : ctx.Searchable F lower :=
  searchable.imp_right fun fits => by omega

/-! ### Uses of bounds -/

namespace Bound

variable (bound : Bound)

/-- A use that every number is fit for fails only on what is no number. -/
theorem faults_of_numeric {α : Type} {use : Bound → Except Fault α}
    (whole : ∀ most, ∃ a, use (.whole most) = .ok a) (real : ∀ x, ∃ a, use (.real x) = .ok a)
    (unfit : use .unfit = .error .unfitLimit) :
    OnlyFaults (fun fault => fault = .unfitLimit ∧ bound = .unfit) (use bound) := by
  cases bound with
  | whole most =>
    obtain ⟨a, used⟩ := whole most
    exact used ▸ .ok a
  | real x =>
    obtain ⟨a, used⟩ := real x
    exact used ▸ .ok a
  | unfit => exact unfit ▸ .error ⟨rfl, rfl⟩

/-- A comparison with a bound fails only if the bound is no number. -/
theorem exceededBy_faults (n : Int) :
    OnlyFaults (fun fault => fault = .unfitLimit ∧ bound = .unfit) (bound.exceededBy n) :=
  bound.faults_of_numeric (fun _ => ⟨_, rfl⟩) (fun x => by cases x <;> exact ⟨_, rfl⟩) rfl

/-- So does the number of entries that a bound leaves room for. -/
theorem capacity_faults (room : Nat) :
    OnlyFaults (fun fault => fault = .unfitLimit ∧ bound = .unfit) (bound.capacity room) :=
  bound.faults_of_numeric (fun _ => ⟨_, rfl⟩) (fun x => by cases x <;> exact ⟨_, rfl⟩) rfl

/-- A number of tries has to be a whole number. -/
theorem asWhole_faults :
    OnlyFaults (fun fault => fault = .unfitLimit ∧ ∀ most, bound ≠ .whole most) bound.asWhole := by
  -- A fraction is no fault of a comparison but is one here, so `faults_of_numeric` does not apply.
  cases bound with
  | whole most => exact .ok _
  | real x => exact .error ⟨rfl, fun most same => by cases same⟩
  | unfit => exact .error ⟨rfl, fun most same => by cases same⟩

end Bound

/-! ### Ways of reading -/

namespace Context.Tolerates

variable {ctx : Context} {F : Fault → Prop} (tolerates : ctx.Tolerates F)
include tolerates

/-- A word is read with any fault only in an unknown byte order: a place that cannot be read has no
    word, which is an answer. -/
theorem readInt (address size : Int) (signed : Bool) :
    OnlyFaults F (ctx.image.readInt address size signed) := by
  rw [Image.readInt]
  split
  · exact .ok none
  · next bytes read =>
    refine .ite (.ok none) ?_
    split
    · -- Bytes of a known order always have a value.
      next undecodable =>
      refine .error (tolerates.byteOrder fun known => ?_)
      obtain ⟨n, decoded⟩ := ByteOrder.value?_isSome known bytes
      rw [undecodable] at decoded
      cases decoded
    · exact .ok _

/-- A relocated word needs no reading; any other is read as a word. -/
theorem resolve (address : Int) : OnlyFaults F (ctx.image.resolve address) := by
  rw [Image.resolve]
  cases ctx.image.relocationAt? address with
  | some r => exact .ok _
  | none => exact tolerates.readInt address ctx.image.ptr false

/-- Recognition follows the word at an address to a root, and a root needs no reading. -/
theorem identify (address : Int) : OnlyFaults F (ctx.roots.identify ctx.image address) := by
  -- A relocation that names its symbol settles the kind without reading the word.
  have kind : OnlyFaults F (ctx.roots.kindOf ctx.image address) := by
    rw [Roots.kindOf]
    cases (ctx.image.relocationAt? address).bind (·.symbol) with
    | some symbol => exact .ok _
    | none =>
      have resolved := tolerates.resolve address
      revert resolved
      cases ctx.image.resolve address with
      | ok value => exact fun _ => .ok _
      | error fault => exact fun resolved => .error (resolved fault rfl)
  rw [Roots.identify]
  refine .ite (.ok none) ?_
  revert kind
  cases ctx.roots.kindOf ctx.image address with
  | ok kind => exact fun _ => .ok _
  | error fault => exact fun kind => .error (kind fault rfl)

/-- The number of bases is compared with its bound. -/
theorem baseCount (n : Int) : OnlyFaults F (ctx.limits.maxBaseCount.exceededBy n) := by
  refine (Bound.exceededBy_faults _ n).mono ?_
  rintro _ ⟨rfl, unfit⟩
  exact tolerates.unfitLimit fun fit => fit.baseCount unfit

/-- Offsets are compared with theirs. -/
theorem offsetToTop (n : Int) : OnlyFaults F (ctx.limits.maxOffsetToTop.exceededBy n) := by
  refine (Bound.exceededBy_faults _ n).mono ?_
  rintro _ ⟨rfl, unfit⟩
  exact tolerates.unfitLimit fun fit => fit.offsetToTop unfit

/-- The number of offset words that may be tried is a whole number if the limits fit. -/
theorem vcallOffsets : OnlyFaults F ctx.limits.maxVcallOffsets.asWhole := by
  refine (Bound.asWhole_faults _).mono ?_
  rintro _ ⟨rfl, unfit⟩
  refine tolerates.unfitLimit fun fit => ?_
  obtain ⟨most, whole⟩ := fit.vcallOffsets
  exact unfit most whole

/-- The number of entries that may be read is a number if the limits fit. -/
theorem vttEntries (room : Nat) : OnlyFaults F (ctx.limits.maxVttEntries.capacity room) := by
  refine (Bound.capacity_faults _ room).mono ?_
  rintro _ ⟨rfl, unfit⟩
  exact tolerates.unfitLimit fun fit => fit.vttEntries unfit

/-- A word of a group is read and compared with the bound on offsets. -/
theorem smallInt (g : Group) (address : Int) : OnlyFaults F (g.smallInt ctx address) := by
  rw [Group.smallInt]
  refine .ite (.ok none) ((tolerates.readInt address ctx.image.ptr true).bind fun word => ?_)
  cases word with
  | none => exact .ok none
  | some value =>
    refine (tolerates.offsetToTop value.natAbs).bind fun exceeded => ?_
    exact .ite (.ok none) (.ok _)

/-- The way back to the start of a group reads one word at each step. -/
theorem groupStart (count : Nat) (address : Int) :
    OnlyFaults F (ctx.image.groupStart ctx.limits.maxOffsetToTop count address) := by
  -- Each step back is one word earlier, so the induction is on the steps that are left.
  induction count generalizing address with
  | zero => exact .ok address
  | succ count ih =>
    rw [Image.groupStart]
    refine .ite (.ok address) ((tolerates.readInt _ ctx.image.ptr true).bind fun word => ?_)
    cases word with
    | none => exact .ok address
    | some value =>
      refine .ite (.ok address) ((tolerates.offsetToTop value.natAbs).bind fun exceeded => ?_)
      exact .ite (.ok address) (ih _)

/-- A reference search may also be stopped, or be given a target that no pointer can hold. -/
theorem references {cancelled : Bool} (stopped : cancelled = true → F .cancelled) {target : Int}
    (searchable : ctx.Searchable F target) :
    OnlyFaults F (ctx.image.findReferences cancelled target ctx.image.ptr) := by
  -- A search begins with the bytes to look for, and only a target that is a number of the program's
  -- width has them.
  have pattern : OnlyFaults F (ctx.image.referencePattern target) := by
    rw [Image.referencePattern]
    split
    · next positive =>
      rw [Image.needle]
      split
      · next unwritten =>
        refine .error (tolerates.byteOrder fun known => ?_)
        obtain ⟨bytes, written⟩ := ByteOrder.bytes?_isSome known ctx.image.width.bytes target.toNat
        rw [unwritten] at written
        cases written
      · split
        · next large => exact .error (searchable.resolve_right fun fits => by omega)
        · exact .ok _
    · exact .ok []
  rw [Image.findReferences_eq (ne_of_gt ctx.image.ptr_pos)]
  refine pattern.bind fun bytes => OnlyFaults.bind ?_ fun hits => ?_
  · rw [Image.findBytes]
    refine .ite (.ok []) ?_
    split
    · next both => exact .error (stopped (Bool.and_eq_true_iff.mp both).1)
    · exact .ok _
  · split
    · next stop => exact .error (stopped stop)
    · exact .ok _

end Context.Tolerates

end ItaniumRtti
