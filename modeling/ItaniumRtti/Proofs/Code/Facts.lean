import ItaniumRtti.Code.Facts
import ItaniumRtti.Proofs.Faults

namespace ItaniumRtti

/-!
# What is forgotten

Facts about registers and stack slots are kept under names, and each instruction adds some and drops
some.

* `Facts.constant?_forgetAll` and the other `simp` lemmas — look-ups after each change of the facts;
* `Instruction.changes`, `Instruction.overwrites` — the registers that an instruction changes;
* `Facts.Establishes`, `Facts.EstablishesObject` — what an instruction makes known;
* `Facts.Stepped`, `Facts.stepped_of_step` — all that a step can do;
* `Facts.Apart` — no register is known to hold both a constant and the object;
* `Facts.renewed_after` — so what an instruction overwrites is forgotten, under two of its names.
-/

/-! ### Registers -/

/-- Names of the registers of one or two bytes. -/
def smallRegisters : List String :=
  ["al", "ah", "ax", "bl", "bh", "bx", "cl", "ch", "cx", "dl", "dh", "dx",
   "sil", "si", "dil", "di", "bpl", "bp", "spl", "sp",
   "r8b", "r8w", "r9b", "r9w", "r10b", "r10w", "r11b", "r11w",
   "r12b", "r12w", "r13b", "r13w", "r14b", "r14w", "r15b", "r15w"]

/-- Small registers are only known under their own names. -/
theorem PointerWidth.registerName_small (w : PointerWidth) {r : String}
    (small : r ∈ smallRegisters) : w.registerName r = r := by
  cases w with
  | narrow => rfl
  | wide =>
    have each : ∀ r ∈ smallRegisters, PointerWidth.wide.registerName r = r := by decide +kernel
    exact each r small

namespace Instruction

variable (w : PointerWidth) (i : Instruction)

/-- The register that gets the result of a move, of an address or of a sum. -/
def target? : Option String :=
  match i.operation with
  | .move (.register name) _ | .loadAddress (.register name) _
  | .add (.register name) (.immediate _) => some name
  | _ => none

/-- The registers that an instruction changes: its target alone, if it has one, and otherwise those
    that it writes.  A call changes registers of the caller instead. -/
def changes : List String :=
  match i.target?, i.operation with
  | some name, _ => [name]
  | none, .move (.memory _) _ => []
  | none, _ => i.written

/-- The registers of which nothing that was known may be kept. -/
def overwrites : List String :=
  match i.operation with
  | .call => w.callerSaved
  -- a sum whose target is not said to be written may leave notes about it
  | _ => (i.changes.filter i.written.contains).map w.registerName

/-- The registers that may be affected, under the names that facts are kept under. -/
def mentions : List String :=
  match i.operation with
  | .call => w.callerSaved
  | _ => (i.written ++ i.changes).map w.registerName

variable {w i}

/-- An instruction with a target changes nothing else. -/
theorem changes_of_target? {name : String} (is : i.target? = some name) : i.changes = [name] := by
  simp [changes, is]

/-- A call has no target. -/
theorem not_call_of_target? {name : String} (is : i.target? = some name) : i.operation ≠ .call := by
  intro call
  simp [target?, call] at is

/-- A register is overwritten if one that is changed and said to be written is kept under its name.
    -/
theorem mem_overwrites {R : String} (other : i.operation ≠ .call) :
    R ∈ i.overwrites w ↔ ∃ r ∈ i.changes, r ∈ i.written ∧ w.registerName r = R := by
  have overwrites : i.overwrites w = (i.changes.filter i.written.contains).map w.registerName := by
    unfold Instruction.overwrites
    split
    · next is => exact absurd is other
    · rfl
  simp [overwrites, and_assoc]

/-- A register other than the target is not overwritten. -/
theorem not_overwritten {R name : String} (target : i.target? = some name)
    (ne : R ≠ w.registerName name) : R ∉ i.overwrites w := by
  intro inside
  obtain ⟨r, changed, -, rfl⟩ := (mem_overwrites (not_call_of_target? target)).mp inside
  rw [changes_of_target? target, List.mem_singleton] at changed
  exact ne (congrArg _ changed)

/-- A move to memory overwrites no register. -/
theorem not_overwritten_of_save {R : String} {place : MemoryOperand} {source : Operand}
    (is : i.operation = .move (.memory place) source) : R ∉ i.overwrites w := by
  intro inside
  obtain ⟨r, changed, -⟩ := (mem_overwrites (by simp [is])).mp inside
  simp [changes, target?, is] at changed

/-- What is overwritten is written. -/
theorem written_of_overwritten {R : String} (other : i.operation ≠ .call)
    (inside : R ∈ i.overwrites w) : R ∈ i.written.map w.registerName := by
  obtain ⟨r, -, written, named⟩ := (mem_overwrites other).mp inside
  exact List.mem_map.mpr ⟨r, written, named⟩

/-- Of other instructions, what is written or changed is mentioned. -/
theorem mentions_eq (other : i.operation ≠ .call) :
    i.mentions w = (i.written ++ i.changes).map w.registerName := by
  unfold Instruction.mentions
  split
  · next is => exact absurd is other
  · rfl

variable (w i)

/-- The stack slot that is written to. -/
def slot? : Option (String × Int) :=
  match i.operation with
  | .move (.memory place) _ | .loadAddress (.memory place) _ | .add (.memory place) _ =>
    place.stackSlot? w
  | _ => none

variable {i} in
/-- An instruction with a register for its target writes to no slot. -/
theorem slot?_of_target? {name : String} (is : i.target? = some name) : i.slot? w = none := by
  unfold target? at is
  split at is <;> simp_all [slot?]

end Instruction

namespace Facts

variable (f : Facts) (R S : String) (v : Int)

/-! ### Look-ups -/

/-- What is left out is not found; all else is found as before. -/
theorem lookup_filter_ne (constants : List (String × Int)) :
    (constants.filter (·.1 != R)).lookup S = if S = R then none else constants.lookup S := by
  induction constants with
  | nil => simp
  | cons c rest ih =>
    obtain ⟨r, value⟩ := c
    by_cases here : r = R
    · rw [List.filter_cons_of_neg (by simp [here]), ih]
      by_cases same : S = R
      · simp [same]
      · have other : (S == r) = false := by simpa [here] using same
        simp [same, List.lookup_cons, other]
    · rw [List.filter_cons_of_pos (by simp [here]), List.lookup_cons, List.lookup_cons, ih]
      by_cases same : S = r
      · simp [same, here]
      · have other : (S == r) = false := by simpa using same
        simp [other]

/-- Nothing is known of a register that is forgotten. -/
@[simp] theorem constant?_forget :
    (f.forget R).constant? S = if S = R then none else f.constant? S :=
  lookup_filter_ne R S f.constants

/-- Nor is it known to hold the object. -/
@[simp] theorem holdsObject_forget :
    (f.forget R).holdsObject S = (f.holdsObject S && S != R) := by
  unfold holdsObject forget
  rw [Bool.eq_iff_iff]
  simp [List.mem_filter]

/-- The new constant is found in its register, and others in theirs. -/
@[simp] theorem constant?_setConstant :
    (f.setConstant R v).constant? S = if S = R then some v else f.constant? S := by
  unfold constant? setConstant
  rw [List.lookup_cons, lookup_filter_ne]
  by_cases same : S = R
  · simp [same]
  · have other : (S == R) = false := by simpa using same
    simp [same, other]

@[simp] theorem holdsObject_setConstant : (f.setConstant R v).holdsObject S = f.holdsObject S := rfl

@[simp] theorem constant?_setObject : (f.setObject R).constant? S = f.constant? S := rfl

/-- The register holds the object, and others do if they did. -/
@[simp] theorem holdsObject_setObject :
    (f.setObject R).holdsObject S = (S == R || f.holdsObject S) := by
  unfold holdsObject setObject
  rw [Bool.eq_iff_iff]
  by_cases same : S = R <;> simp [same]

@[simp] theorem constant?_setSlot (slot : Option (String × Int)) (keeps : Bool) :
    (f.setSlot slot keeps).constant? S = f.constant? S := by
  cases slot <;> rfl

@[simp] theorem holdsObject_setSlot (slot : Option (String × Int)) (keeps : Bool) :
    (f.setSlot slot keeps).holdsObject S = f.holdsObject S := by
  cases slot <;> rfl

/-- Nothing is known of any of the registers that are forgotten. -/
@[simp] theorem constant?_forgetAll (registers : List String) :
    (f.forgetAll registers).constant? S = if S ∈ registers then none else f.constant? S := by
  induction registers generalizing f with
  | nil => simp [forgetAll]
  | cons r rest ih =>
    show ((f.forget r).forgetAll rest).constant? S = _
    rw [ih, constant?_forget]
    by_cases here : S = r <;> by_cases there : S ∈ rest <;> simp [here, there]

/-- None of them is known to hold the object. -/
@[simp] theorem holdsObject_forgetAll (registers : List String) :
    (f.forgetAll registers).holdsObject S = (f.holdsObject S && !registers.contains S) := by
  induction registers generalizing f with
  | nil => simp [forgetAll]
  | cons r rest ih =>
    show ((f.forget r).forgetAll rest).holdsObject S = _
    rw [ih, holdsObject_forget]
    by_cases here : S = r
    · simp [here]
    · have other : (S != r) = true := by simpa using here
      simp [here, other]

/-- The stack stays as it was. -/
@[simp] theorem slots_forgetAll (registers : List String) :
    (f.forgetAll registers).slots = f.slots := by
  induction registers generalizing f with
  | nil => rfl
  | cons r rest ih => exact ih (f.forget r)

/-- The slot keeps the object if that is said, and others do if they did. -/
theorem mem_slots_setSlot (slot : Option (String × Int)) (keeps : Bool) (s : String × Int) :
    s ∈ (f.setSlot slot keeps).slots ↔ if slot = some s then keeps = true else s ∈ f.slots := by
  cases slot with
  | none => simp [setSlot]
  | some place => by_cases here : s = place <;> cases keeps <;> simp [setSlot, here, Ne.symm]

/-! ### What a step can do -/

/-- Whether a move from `place` gets the object: it is the first argument on the stack, or a slot
    that keeps the object. -/
def readsObject (w : PointerWidth) (place : MemoryOperand) : Bool :=
  place.isFirstArgument w || (place.stackSlot? w).any f.slots.contains

/-- Whether a move to memory saves the object. -/
def savesObject (w : PointerWidth) (i : Instruction) : Bool :=
  match i.operation with
  | .move (.memory _) source => f.operandIsObject w source
  | _ => false

/-- `R` was written: what is known of it now is that it holds `value`, if there is one, and the
    object, if `object` says so. -/
def assign (value : Option Int) (object : Bool) : Facts :=
  let rest := f.forget R
  let known := value.elim rest (rest.setConstant R)
  if object then known.setObject R else known

/-- Of the register that is written, the new constant is known and no other. -/
@[simp] theorem constant?_assign (value : Option Int) (object : Bool) :
    (f.assign R value object).constant? S = if S = R then value else f.constant? S := by
  unfold assign
  cases object <;> cases value <;> by_cases here : S = R <;> simp [here]

/-- It holds the object if that is said, whatever it held before. -/
@[simp] theorem holdsObject_assign (value : Option Int) (object : Bool) :
    (f.assign R value object).holdsObject S = if S = R then object else f.holdsObject S := by
  have other : ¬ S = R → (S == R) = false := by simp
  unfold assign
  cases object <;> cases value <;> by_cases here : S = R <;> simp [here, bne, other]

/-- Writing a register does not touch the stack. -/
@[simp] theorem slots_assign (value : Option Int) (object : Bool) :
    (f.assign R value object).slots = f.slots := by
  cases object <;> cases value <;> rfl

/-- `i` makes known which constant `R` holds. -/
inductive Establishes (f : Facts) (img : Image) (i : Instruction) (R : String) : Int → Prop where
  /-- A move of an immediate. -/
  | immediate {name : String} {value : Int} :
      i.operation = .move (.register name) (.immediate value) →
      img.width.registerName name = R → Establishes f img i R (img.width.wrap value)
  /-- A copy of another register. -/
  | copied {name other : String} {value : Int} :
      i.operation = .move (.register name) (.register other) →
      img.width.registerName name = R → img.width.registerName other ≠ R →
      f.constant? (img.width.registerName other) = some value → Establishes f img i R value
  /-- A load from a place whose address is known. -/
  | loaded {name : String} {place : MemoryOperand} {address value : Int} :
      i.operation = .move (.register name) (.memory place) →
      img.width.registerName name = R → f.readsObject img.width place = false →
      place.effectiveAddress? img.width i = some address →
      img.resolve address = .ok (some value) → value ≠ 0 → Establishes f img i R value
  /-- The address of such a place. -/
  | address {name : String} {place : MemoryOperand} {address : Int} :
      i.operation = .loadAddress (.register name) (.memory place) →
      img.width.registerName name = R → place.effectiveAddress? img.width i = some address →
      Establishes f img i R address
  /-- A sum. -/
  | sum {name : String} {addend old : Int} :
      i.operation = .add (.register name) (.immediate addend) →
      img.width.registerName name = R → f.constant? R = some old →
      Establishes f img i R (img.width.wrap (old + addend))

/-- `i` makes known that `R` holds the object. -/
inductive EstablishesObject (f : Facts) (img : Image) (i : Instruction) (R : String) : Prop where
  /-- A copy of another register. -/
  | copied {name other : String} :
      i.operation = .move (.register name) (.register other) →
      img.width.registerName name = R → img.width.registerName other ≠ R →
      f.holdsObject (img.width.registerName other) = true → EstablishesObject f img i R
  /-- A load from the stack. -/
  | loaded {name : String} {place : MemoryOperand} :
      i.operation = .move (.register name) (.memory place) →
      img.width.registerName name = R → f.readsObject img.width place = true →
      EstablishesObject f img i R

/-- All that an instruction can do to what is known, and the store that it makes. -/
inductive Stepped (f : Facts) (img : Image) (i : Instruction) :
    Facts → Option VptrStore → Prop where
  /-- A call spoils registers of the caller. -/
  | call : i.operation = .call → Stepped f img i (f.forgetAll img.width.callerSaved) none
  /-- A pointer is stored. -/
  | stored {place : MemoryOperand} {source : Operand} :
      i.operation = .move (.memory place) source → place.size = img.ptr →
      Stepped f img i (f.setSlot (i.slot? img.width) (f.savesObject img.width i))
        (f.storeOf? img.width i place source)
  /-- A register gets a value; nothing else is known of it now than what is made known. -/
  | assigned {name : String} {value : Option Int} {object : Bool} : i.target? = some name →
      (∀ v, value = some v → f.Establishes img i (img.width.registerName name) v) →
      (object = true → f.EstablishesObject img i (img.width.registerName name)) →
      Stepped f img i (f.assign (img.width.registerName name) value object) none
  /-- A constant is added to a known one. -/
  | added {name : String} {addend old : Int} :
      i.operation = .add (.register name) (.immediate addend) →
      f.constant? (img.width.registerName name) = some old →
      Stepped f img i (f.setConstant (img.width.registerName name)
        (img.width.wrap (old + addend))) none
  /-- What is written is forgotten. -/
  | overwrote : i.operation ≠ .call →
      Stepped f img i ((f.setSlot (i.slot? img.width) (f.savesObject img.width i)).forgetAll
        (i.written.map img.width.registerName)) none

variable {f R S v} {img : Image} {i : Instruction} {next : Facts} {store : Option VptrStore}

/-- A register gets a constant. -/
theorem Stepped.known {name : String} {value : Int} (target : i.target? = some name)
    (establishes : f.Establishes img i (img.width.registerName name) value) :
    f.Stepped img i ((f.forget (img.width.registerName name)).setConstant
      (img.width.registerName name) value) none := by
  have assigned : f.Stepped img i (f.assign _ (some value) false) none :=
    .assigned target (fun v same => Option.some.inj same ▸ establishes) fun no => by cases no
  exact assigned

/-- A register gets something unknown. -/
theorem Stepped.lost {name : String} (target : i.target? = some name) :
    f.Stepped img i (f.forget (img.width.registerName name)) none := by
  have assigned : f.Stepped img i (f.assign _ none false) none :=
    .assigned target (fun v none => by cases none) fun no => by cases no
  exact assigned

/-- A move from memory: the object, the pointer at a known address, or something unknown. -/
theorem stepped_of_load {name : String} {place : MemoryOperand}
    (is : i.operation = .move (.register name) (.memory place))
    (moved : f.afterMove img i (img.width.registerName name) (.memory place) = .ok next) :
    f.Stepped img i next none := by
  have target : i.target? = some name := by simp [Instruction.target?, is]
  rw [afterMove, ← readsObject] at moved
  -- The stack is tried first: what is read from there is never taken for a constant.
  by_cases object : f.readsObject img.width place = true
  · rw [if_pos object] at moved
    have assigned : f.Stepped img i (f.assign _ none true) none :=
      .assigned target (fun v none => by cases none) fun _ => .loaded is rfl object
    cases moved
    exact assigned
  rw [if_neg object] at moved
  cases addressed : place.effectiveAddress? img.width i with
  | none =>
    rw [addressed] at moved
    cases moved
    exact .lost target
  | some address =>
    rw [addressed] at moved
    obtain ⟨value, resolved, moved⟩ := of_except_bind_ok moved
    cases value with
    | none =>
      cases moved
      exact .lost target
    | some value =>
      have found := Except.ok.inj moved
      -- A null pointer makes nothing known.
      by_cases zero : value = 0
      · rw [if_pos zero] at found
        subst found
        exact .lost target
      · rw [if_neg zero] at found
        subst found
        exact .known target (.loaded is rfl (Bool.not_eq_true _ ▸ object) addressed resolved zero)

/-- A copy of a register: what is known of the one is known of the other. -/
theorem stepped_of_copy {name source : String}
    (is : i.operation = .move (.register name) (.register source))
    (moved : f.afterMove img i (img.width.registerName name) (.register source) = .ok next) :
    f.Stepped img i next none := by
  -- The target is forgotten before the source is looked up, so a register that is copied to itself
  -- is not known afterwards.
  have assigned : f.Stepped img i (f.assign (img.width.registerName name)
      ((f.forget (img.width.registerName name)).constant? (img.width.registerName source))
      ((f.forget (img.width.registerName name)).holdsObject (img.width.registerName source)))
      none := by
    refine .assigned ?_ (fun v found => ?_) fun found => ?_
    · simp [Instruction.target?, is]
    · rw [constant?_forget] at found
      split at found
      · cases found
      · next ne => exact .copied is rfl ne found
    · rw [holdsObject_forget, Bool.and_eq_true, bne_iff_ne] at found
      exact .copied is rfl found.2 found.1
  rw [afterMove] at moved
  cases moved
  unfold assign at assigned
  revert assigned
  cases (f.forget (img.width.registerName name)).constant? (img.width.registerName source) with
  | none => exact id
  | some value => exact id

/-- A move to a register, by what is moved. -/
theorem stepped_of_move {name : String} {source : Operand}
    (is : i.operation = .move (.register name) source)
    (moved : f.afterMove img i (img.width.registerName name) source = .ok next) :
    f.Stepped img i next none := by
  cases source with
  | immediate value =>
    cases moved
    refine .known ?_ (.immediate is rfl)
    simp [Instruction.target?, is]
  | register source => exact stepped_of_copy is moved
  | memory place => exact stepped_of_load is moved

/-- What is written is forgotten, and no slot is written to. -/
theorem Stepped.plain (other : i.operation ≠ .call) (slotless : i.slot? img.width = none) :
    f.Stepped img i (f.forgetAll (i.written.map img.width.registerName)) none := by
  have overwrote : f.Stepped img i _ none := .overwrote other
  rw [slotless] at overwrote
  exact overwrote

/-- A move to memory: only one of a pointer is a store. -/
theorem stepped_of_save {place : MemoryOperand} {source : Operand}
    (is : i.operation = .move (.memory place) source) (step : f.step img i = .ok (next, store)) :
    f.Stepped img i next store := by
  have slot : i.slot? img.width = place.stackSlot? img.width := by simp [Instruction.slot?, is]
  have saves : f.savesObject img.width i = f.operandIsObject img.width source := by
    simp [savesObject, is]
  rw [Facts.step, is] at step
  dsimp only at step
  rw [← slot, ← saves] at step
  -- Whatever its size, the move overwrites the slot.
  by_cases pointer : place.size = img.ptr
  · rw [if_neg (not_not_intro pointer)] at step
    cases step
    exact .stored is pointer
  · rw [if_pos pointer] at step
    cases step
    exact .overwrote (by simp [is])

/-- An address that is put into a register is known if it depends on no other register. -/
theorem stepped_of_address {target source : Operand} (is : i.operation = .loadAddress target source)
    (step : f.step img i = .ok (next, store)) : f.Stepped img i next store := by
  have other : i.operation ≠ .call := by simp [is]
  rw [Facts.step, is] at step
  cases target with
  | immediate value =>
    cases step
    exact .plain other (by simp [Instruction.slot?, is])
  | memory place =>
    cases step
    have overwrote : f.Stepped img i _ none := .overwrote other
    simpa [Instruction.slot?, savesObject, is] using overwrote
  | register name =>
    have target : i.target? = some name := by simp [Instruction.target?, is]
    cases step
    cases source with
    | register _ => exact .lost target
    | immediate _ => exact .lost target
    | memory place =>
      unfold afterLoadAddress
      dsimp only
      cases found : place.effectiveAddress? img.width i with
      | none => exact .lost target
      | some address => exact .known target (.address is rfl found)

/-- A sum: only that of a known constant and an immediate is computed. -/
theorem stepped_of_add {target source : Operand} (is : i.operation = .add target source)
    (step : f.step img i = .ok (next, store)) : f.Stepped img i next store := by
  have other : i.operation ≠ .call := by simp [is]
  rw [Facts.step, is] at step
  cases target with
  | immediate value =>
    cases step
    exact .plain other (by simp [Instruction.slot?, is])
  | memory place =>
    cases step
    have overwrote : f.Stepped img i _ none := .overwrote other
    simpa [Instruction.slot?, savesObject, is] using overwrote
  | register name =>
    have slotless : i.slot? img.width = none := by simp [Instruction.slot?, is]
    -- Only a sum with an immediate is computed; any other forgets what is written.
    cases source with
    | register _ =>
      cases step
      exact .plain other slotless
    | memory _ =>
      cases step
      exact .plain other slotless
    | immediate addend =>
      dsimp only at step
      cases found : f.constant? (img.width.registerName name) with
      | none =>
        rw [found] at step
        cases step
        exact .plain other slotless
      | some old =>
        rw [found] at step
        cases step
        exact .added is found

/-- **A step** does nothing else. -/
theorem stepped_of_step (step : f.step img i = .ok (next, store)) : f.Stepped img i next store := by
  -- One case for each operation; those without operands of interest forget what they write.
  cases is : i.operation with
  | move target source =>
    cases target with
    | memory place => exact stepped_of_save is step
    | register name =>
      rw [Facts.step, is] at step
      obtain ⟨after, moved, step⟩ := of_except_bind_ok step
      cases step
      exact stepped_of_move is moved
    | immediate value =>
      rw [Facts.step, is] at step
      cases step
      exact .plain (by simp [is]) (by simp [Instruction.slot?, is])
  | loadAddress target source => exact stepped_of_address is step
  | add target source => exact stepped_of_add is step
  | call =>
    rw [Facts.step, is] at step
    cases step
    exact .call is
  | ret =>
    rw [Facts.step, is] at step
    cases step
    exact .plain (by simp [is]) (by simp [Instruction.slot?, is])
  | other =>
    rw [Facts.step, is] at step
    cases step
    exact .plain (by simp [is]) (by simp [Instruction.slot?, is])

/-! ### Registers after a step -/

/-- What is known of a constant after a step: the step made it known, or it was known before and the
    register is not overwritten. -/
theorem Stepped.constant (stepped : f.Stepped img i next store)
    (found : next.constant? R = some v) :
    f.Establishes img i R v ∨ f.constant? R = some v ∧ R ∉ i.overwrites img.width := by
  -- Each kind of step either sets the register anew or leaves it, and forgets it if it was
  -- overwritten.
  cases stepped with
  | call is =>
    rw [constant?_forgetAll] at found
    split at found
    · cases found
    · next outside => exact .inr ⟨found, by simpa [Instruction.overwrites, is] using outside⟩
  | stored is pointer =>
    rw [constant?_setSlot] at found
    exact .inr ⟨found, Instruction.not_overwritten_of_save is⟩
  | assigned target establishes _ =>
    rw [constant?_assign] at found
    split at found
    · next here => exact .inl (here ▸ establishes v found)
    · next ne => exact .inr ⟨found, Instruction.not_overwritten target ne⟩
  | added is known =>
    rw [constant?_setConstant] at found
    split at found
    · next here =>
      cases found
      exact .inl (.sum is here.symm (here ▸ known))
    · next ne =>
      exact .inr ⟨found, Instruction.not_overwritten (by simp [Instruction.target?, is]) ne⟩
  | overwrote other =>
    rw [constant?_forgetAll, constant?_setSlot] at found
    split at found
    · cases found
    · next outside =>
      exact .inr ⟨found, fun inside => outside (Instruction.written_of_overwritten other inside)⟩

/-- No register is known to hold both a constant and the object. -/
def Apart (f : Facts) : Prop :=
  ∀ {R v}, f.constant? R = some v → f.holdsObject R = false

/-- What is known of the object after a step, likewise.  A sum leaves the note that its target holds
    the object, but there is none if the target holds a constant. -/
theorem Stepped.object (stepped : f.Stepped img i next store) (apart : f.Apart)
    (found : next.holdsObject R = true) :
    f.EstablishesObject img i R ∨ f.holdsObject R = true ∧ R ∉ i.overwrites img.width := by
  cases stepped with
  | call is =>
    rw [holdsObject_forgetAll, Bool.and_eq_true] at found
    refine .inr ⟨found.1, ?_⟩
    simpa [Instruction.overwrites, is] using found.2
  | stored is pointer =>
    rw [holdsObject_setSlot] at found
    exact .inr ⟨found, Instruction.not_overwritten_of_save is⟩
  | assigned target _ establishes =>
    rw [holdsObject_assign] at found
    split at found
    · next here => exact .inl (here ▸ establishes found)
    · next ne => exact .inr ⟨found, Instruction.not_overwritten target ne⟩
  | @added name _ _ is known =>
    rw [holdsObject_setConstant] at found
    have target : i.target? = some name := by simp [Instruction.target?, is]
    refine .inr ⟨found, Instruction.not_overwritten target ?_⟩
    -- the target holds a constant, so it does not hold the object
    rintro rfl
    rw [apart known] at found
    cases found
  | overwrote other =>
    rw [holdsObject_forgetAll, holdsObject_setSlot, Bool.and_eq_true] at found
    have outside : R ∉ i.written.map img.width.registerName := by simpa using found.2
    exact .inr ⟨found.1, fun inside => outside (Instruction.written_of_overwritten other inside)⟩

/-- Registers that an instruction does not mention keep what is known of them. -/
theorem Stepped.unmentioned (stepped : f.Stepped img i next store)
    (outside : R ∉ i.mentions img.width) :
    next.constant? R = f.constant? R ∧ next.holdsObject R = f.holdsObject R := by
  -- neither written nor changed, unless the instruction is a call
  have apart : i.operation ≠ .call → R ∉ i.written.map img.width.registerName ∧
      R ∉ i.changes.map img.width.registerName := by
    intro other
    rw [Instruction.mentions_eq other, List.map_append, List.mem_append, not_or] at outside
    exact outside
  cases stepped with
  | call is =>
    have kept : R ∉ img.width.callerSaved := by simpa [Instruction.mentions, is] using outside
    simp [kept]
  | stored is pointer => simp
  | @assigned name _ _ target _ _ =>
    have ne : ¬ R = img.width.registerName name := by
      simpa [Instruction.changes_of_target? target] using
        (apart (Instruction.not_call_of_target? target)).2
    simp [ne]
  | @added name _ _ is known =>
    have ne : ¬ R = img.width.registerName name := by
      simpa [Instruction.changes, Instruction.target?, is] using (apart (by simp [is])).2
    simp [ne]
  | overwrote other =>
    have unwritten := (apart other).1
    rw [constant?_forgetAll, if_neg unwritten, constant?_setSlot, holdsObject_forgetAll,
      holdsObject_setSlot, List.contains_eq_mem, decide_eq_false unwritten]
    simp

/-- The slots after a step: only the one that is written to may have changed. -/
theorem Stepped.slots (stepped : f.Stepped img i next store) (slot : String × Int) :
    slot ∈ next.slots ↔ if i.slot? img.width = some slot then f.savesObject img.width i = true
      else slot ∈ f.slots := by
  cases stepped with
  | call is => simp [Instruction.slot?, is]
  | stored is pointer => exact f.mem_slots_setSlot _ _ slot
  | assigned target _ _ => simp [Instruction.slot?_of_target? img.width target]
  | added is known => simp [Instruction.slot?, is, setConstant]
  | overwrote other =>
    rw [slots_forgetAll]
    exact f.mem_slots_setSlot _ _ slot

/-- An instruction does not make known both a constant and the object. -/
theorem Establishes.not_object (apart : f.Apart) (constant : f.Establishes img i R v) :
    ¬ f.EstablishesObject img i R := by
  intro object
  -- Both could be made known only by the same move, of which the source would be known as both.
  cases object with
  | copied is _ _ object =>
    cases constant with
    | copied also _ _ found =>
      cases is.symm.trans also
      rw [apart found] at object
      cases object
    | immediate also => cases is.symm.trans also
    | loaded also => cases is.symm.trans also
    | address also => cases is.symm.trans also
    | sum also => cases is.symm.trans also
  | loaded is _ object =>
    cases constant with
    | loaded also _ plain =>
      cases is.symm.trans also
      rw [plain] at object
      cases object
    | immediate also => cases is.symm.trans also
    | copied also => cases is.symm.trans also
    | address also => cases is.symm.trans also
    | sum also => cases is.symm.trans also

/-- A step keeps constants and the object apart. -/
theorem Stepped.apart (stepped : f.Stepped img i next store) (apart : f.Apart) : next.Apart := by
  intro R v constant
  cases stepped with
  | call is =>
    rw [constant?_forgetAll] at constant
    split at constant
    · cases constant
    · rw [holdsObject_forgetAll, apart constant, Bool.false_and]
  | stored is pointer =>
    rw [constant?_setSlot] at constant
    rw [holdsObject_setSlot]
    exact apart constant
  | assigned target establishes object =>
    rw [constant?_assign] at constant
    rw [holdsObject_assign]
    split at constant
    · next here =>
      -- the constant was made known just now, and then the object was not
      rw [if_pos here]
      refine Bool.eq_false_iff.mpr fun both => ?_
      exact (establishes v constant).not_object apart (object both)
    · next ne =>
      rw [if_neg ne]
      exact apart constant
  | added is known =>
    rw [constant?_setConstant] at constant
    rw [holdsObject_setConstant]
    split at constant
    · next here => exact here ▸ apart known
    · exact apart constant
  | overwrote other =>
    rw [constant?_forgetAll, constant?_setSlot] at constant
    split at constant
    · cases constant
    · rw [holdsObject_forgetAll, holdsObject_setSlot, apart constant, Bool.false_and]

/-! ### Runs -/

/-- What is known after a run of instructions. -/
def after (img : Image) : Facts → List Instruction → Except Fault Facts
  | f, [] => return f
  | f, i :: rest => do
    let (next, _) ← f.step img i
    after img next rest

/-- The stores of a run are those of its first instruction and those of the rest. -/
theorem of_stores_cons {rest : List Instruction} {reported : List VptrStore}
    (found : f.stores img (i :: rest) = .ok reported) : ∃ next store more,
      f.step img i = .ok (next, store) ∧ next.stores img rest = .ok more ∧
      reported = store.toList ++ more := by
  obtain ⟨⟨next, store⟩, step, found⟩ := of_except_bind_ok found
  obtain ⟨more, later, found⟩ := of_except_bind_ok found
  cases found
  exact ⟨next, store, more, step, later, rfl⟩

/-- Constants and the object are apart at the entry, and so they are after any run. -/
theorem apart_after {code : List Instruction} (apart : f.Apart)
    (reached : f.after img code = .ok next) : next.Apart := by
  induction code generalizing f with
  | nil =>
    cases reached
    exact apart
  | cons i rest ih =>
    obtain ⟨⟨middle, store⟩, step, reached⟩ := of_except_bind_ok reached
    exact ih ((stepped_of_step step).apart apart) reached

theorem apart_atEntry (w : PointerWidth) : (atEntry w).Apart := by
  intro R v constant
  cases constant

/-- What becomes of the facts when an instruction is executed. -/
structure Renewed (f : Facts) (img : Image) (i : Instruction) (next : Facts) : Prop where
  /-- Of the constant in a register that is overwritten, nothing is known but what is made known. -/
  constants : ∀ R ∈ i.overwrites img.width, ∀ v, next.constant? R = some v →
    f.Establishes img i R v
  /-- Nor is it known to hold the object, unless that is made known. -/
  object : ∀ R ∈ i.overwrites img.width, next.holdsObject R = true → f.EstablishesObject img i R
  /-- Of registers that are not mentioned, the same is known as before. -/
  unmentioned : ∀ R, R ∉ i.mentions img.width →
    next.constant? R = f.constant? R ∧ next.holdsObject R = f.holdsObject R
  /-- Of all larger registers, too, if only small ones are written, even if these are parts of
      them. -/
  parts : i.operation ≠ .call → (∀ r ∈ i.written ++ i.changes, r ∈ smallRegisters) →
    ∀ R, R ∉ smallRegisters →
      next.constant? R = f.constant? R ∧ next.holdsObject R = f.holdsObject R
  /-- A slot keeps the object until something else is written to it.  It does not matter whether the
      register that it is addressed from is overwritten. -/
  slots : ∀ slot, slot ∈ next.slots ↔ if i.slot? img.width = some slot
    then f.savesObject img.width i = true else slot ∈ f.slots

/-- **What is forgotten.**  At every point of every run of instructions, the next one leaves nothing
    known of a register that it overwrites under its own name or that of its half, except what it
    makes known itself, and a call leaves nothing known of registers that it may spoil.  All else
    stays known: also of a register of which a smaller part is overwritten, and of a slot whose
    frame register is. -/
theorem renewed_after (img : Image) {before : List Instruction} {i : Instruction} {f next : Facts}
    {store : Option VptrStore} (reached : (atEntry img.width).after img before = .ok f)
    (step : f.step img i = .ok (next, store)) : f.Renewed img i next := by
  have stepped := stepped_of_step step
  -- A sum sets a constant without forgetting the object; by the invariant its target did not hold
  -- it.
  have apart : f.Apart := apart_after (apart_atEntry img.width) reached
  refine ⟨?constants, ?object, fun R => stepped.unmentioned, ?parts, stepped.slots⟩
  case constants =>
    intro R inside v found
    exact (stepped.constant found).resolve_right fun old => old.2 inside
  case object =>
    intro R inside found
    exact (stepped.object apart found).resolve_right fun old => old.2 inside
  case parts =>
    intro other small R large
    refine stepped.unmentioned fun mentioned => large ?_
    rw [Instruction.mentions_eq other] at mentioned
    obtain ⟨r, member, rfl⟩ := List.mem_map.mp mentioned
    rw [img.width.registerName_small (small r member)]
    exact small r member

end Facts

/-! ### Facts that outlive what they are about -/

/-- The address `0x2000` is put into `rax`, and the object is saved on the stack. -/
def Instruction.samplePrologue : List Instruction :=
  [⟨0x1000, 7, .loadAddress (.register "rax") (.memory ⟨some "rip", none, 0xff9, 8⟩), ["rax"]⟩,
   ⟨0x1007, 4, .move (.memory ⟨some "rbp", none, -8, 8⟩) (.register "rdi"), []⟩]

/-- The lowest byte of `rax` is overwritten. -/
def Instruction.samplePart : Instruction :=
  ⟨0x100b, 2, .move (.register "al") (.immediate 5), ["al"]⟩

/-- The frame register is overwritten. -/
def Instruction.sampleFrame : Instruction :=
  ⟨0x100d, 3, .move (.register "rbp") (.register "rsi"), ["rbp"]⟩

/-- A program without contents. -/
def Image.sampleBlank : Image :=
  .ofParts .wide .little "x86_64" none [] [] []

/-- After both, `rax` is still taken to hold the address, and the slot to keep the object. -/
theorem Facts.renewed_after_sample : ∃ f middle next,
    (atEntry .wide).after .sampleBlank Instruction.samplePrologue = .ok f ∧
    f.step .sampleBlank .samplePart = .ok (middle, none) ∧
    middle.step .sampleBlank .sampleFrame = .ok (next, none) ∧
    f.Renewed .sampleBlank .samplePart middle ∧ middle.Renewed .sampleBlank .sampleFrame next ∧
    next.constant? "rax" = some 0x2000 ∧ ("rbp", -8) ∈ next.slots := by
  have reached : ∃ f, (atEntry .wide).after .sampleBlank Instruction.samplePrologue = .ok f ∧
      f = { constants := [("rax", 0x2000)], object := ["rdi"], slots := [("rbp", -8)] } :=
    ⟨_, rfl, by decide +kernel⟩
  obtain ⟨f, first, rfl⟩ := reached
  have again : ∃ g, (atEntry .wide).after .sampleBlank
      (Instruction.samplePrologue ++ [.samplePart]) = .ok g ∧
      g = { constants := [("al", 5), ("rax", 0x2000)], object := ["rdi"],
            slots := [("rbp", -8)] } :=
    ⟨_, rfl, by decide +kernel⟩
  obtain ⟨g, second, rfl⟩ := again
  refine ⟨_, _, _, first, rfl, rfl, renewed_after .sampleBlank first rfl,
    renewed_after .sampleBlank second rfl, by decide +kernel, by decide +kernel⟩

end ItaniumRtti
