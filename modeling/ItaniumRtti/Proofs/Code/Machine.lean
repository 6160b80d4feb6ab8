import ItaniumRtti.Code.Detector
import ItaniumRtti.Proofs.Code.Facts
import ItaniumRtti.Proofs.Layout
import ItaniumRtti.Proofs.Recover
import Mathlib.Data.List.Forall2

namespace ItaniumRtti

/-!
# Constants as the machine computes them

Code in which only registers of full width occur, and no memory is addressed from the frame, is
executed from one instruction to the next.  What is known about registers holds of the machine.

* `Instruction.IsFull` — instructions of such code;
* `Registers`, `Executes`, `Runs` — the machine: what its registers hold, what an instruction does
  to them, and the pointers that a run of instructions writes;
* `Facts.Agrees` — what is known is true of the machine;
* `Facts.Agrees.step`, `Facts.Agrees.stores` — it stays so, step by step and over a run;
* `Image.storesIn_sound` — so the stores that are reported are made.
-/

/-! ### Words -/

namespace PointerWidth

variable (w : PointerWidth)

/-- The word that equals `value` modulo the number of pointers. -/
def word (value : Int) : w.Word :=
  BitVec.ofInt _ value

/-- Read as a number, a word is the value modulo the number of pointers. -/
theorem toNat_word (value : Int) : ((w.word value).toNat : Int) = w.wrap value := by
  have positive : (0 : Int) < (w.span : Int) := by
    rw [span]
    exact_mod_cast Nat.pow_pos (by decide)
  rw [word, BitVec.toNat_ofInt, wrap, span, pow_256_eq]
  refine Int.toNat_of_nonneg (Int.emod_nonneg _ ?_)
  rw [span, pow_256_eq] at positive
  exact positive.ne'

theorem word_toNat (x : w.Word) : w.word x.toNat = x := by
  rw [word, BitVec.ofInt_natCast, BitVec.ofNat_toNat, BitVec.setWidth_eq]

/-- Words are added modulo the number of pointers. -/
theorem word_add (a b : Int) : w.word (a + b) = w.word a + w.word b :=
  BitVec.ofInt_add a b

/-- A pointer in range is its own word. -/
theorem toNat_word_of_range {value : Int} (least : 0 ≤ value) (most : value < w.span) :
    ((w.word value).toNat : Int) = value := by
  rw [toNat_word, wrap, Int.emod_eq_of_lt least most]

end PointerWidth

/-! ### Code of full width -/

/-- A register that is no part of another one. -/
def PointerWidth.IsFull (w : PointerWidth) (r : String) : Prop :=
  r ∉ smallRegisters ∧ w.registerName r = r

instance (w : PointerWidth) (r : String) : Decidable (w.IsFull r) :=
  inferInstanceAs (Decidable (_ ∧ _))

/-- A register of full width, or a place in memory that is not addressed from the frame. -/
def Operand.IsFull (w : PointerWidth) : Operand → Prop
  | .register name => w.IsFull name
  | .memory place => ∀ base ∈ place.base, base ∉ frameRegisters
  | .immediate _ => True

instance (w : PointerWidth) : (o : Operand) → Decidable (o.IsFull w)
  | .register name => inferInstanceAs (Decidable (w.IsFull name))
  | .memory place => inferInstanceAs (Decidable (∀ base ∈ place.base, base ∉ frameRegisters))
  | .immediate _ => .isTrue trivial

/-- The operands of an operation. -/
def Operation.operands : Operation → List Operand
  | .move target source | .loadAddress target source | .add target source => [target, source]
  | _ => []

/-- Instructions whose effect on registers can be told from the names of registers alone. -/
structure Instruction.IsFull (w : PointerWidth) (i : Instruction) : Prop where
  /-- Operands that are registers have full width, and no memory is addressed from the frame. -/
  operands : ∀ o ∈ i.operation.operands, o.IsFull w
  /-- Registers that are written have full width. -/
  written : ∀ r ∈ i.written, w.IsFull r
  /-- What is changed is among what is written. -/
  changed : ∀ r ∈ i.changes, r ∈ i.written

instance (w : PointerWidth) (i : Instruction) : Decidable (i.IsFull w) :=
  decidable_of_iff ((∀ o ∈ i.operation.operands, o.IsFull w) ∧ (∀ r ∈ i.written, w.IsFull r) ∧
      ∀ r ∈ i.changes, r ∈ i.written)
    ⟨fun all => ⟨all.1, all.2.1, all.2.2⟩, fun full => ⟨full.operands, full.written, full.changed⟩⟩

/-- A register that is an operand is known under its own name. -/
theorem Instruction.IsFull.registerName {w : PointerWidth} {i : Instruction} (full : i.IsFull w)
    {r : String} (member : .register r ∈ i.operation.operands) : w.registerName r = r :=
  (full.operands _ member).2

/-- The pointers that an instruction is known to load can be held by a register. -/
def Instruction.LoadsInRange (img : Image) (i : Instruction) : Prop :=
  ∀ {name place address p}, i.operation = .move (.register name) (.memory place) →
    place.effectiveAddress? img.width i = some address → img.resolve address = .ok (some p) →
    0 ≤ p ∧ p < img.width.span

/-! ### The machine -/

/-- What the registers hold, by their full names.  Flags are not among them. -/
abbrev Registers (w : PointerWidth) : Type :=
  String → w.Word

namespace Registers

variable {w : PointerWidth} (s : Registers w)

/-- The address of a place in memory that has no index register. -/
def address (i : Instruction) (m : MemoryOperand) : w.Word :=
  match m.base with
  | none => w.word m.displacement
  | some base =>
    (if base = "rip" then w.word (i.address + i.size) else s base) + w.word m.displacement

/-- The value of an operand outside memory. -/
def value? : Operand → Option w.Word
  | .immediate value => some (w.word value)
  | .register name => some (s name)
  | .memory _ => none

end Registers

/-- A pointer that is written to memory. -/
structure PointerWrite (w : PointerWidth) where
  /-- Address of the instruction. -/
  site : Int
  /-- What is written. -/
  word : w.Word
  /-- What the base register of the place holds. -/
  base : Option w.Word

/-- The pointer that an instruction writes. -/
def Registers.write? (img : Image) (s : Registers img.width) (i : Instruction) :
    Option (PointerWrite img.width) :=
  match i.operation with
  | .move (.memory place) source =>
    if place.size = img.ptr then
      (s.value? source).map fun word =>
        { site := i.address, word := word, base := (place.baseRegister? img.width).map s }
    else none
  | _ => none

/-- An instruction may lead from `s` to `s'`. -/
structure Executes (img : Image) (i : Instruction) (s s' : Registers img.width) : Prop where
  /-- A call changes registers of the caller only. -/
  call : i.operation = .call → ∀ r, r ∉ img.width.callerSaved → s' r = s r
  /-- Another instruction changes its target only, or what it writes if it has none. -/
  unchanged : i.operation ≠ .call → ∀ r, r ∉ i.changes → s' r = s r
  /-- A move of an immediate. -/
  immediate : ∀ {name value}, i.operation = .move (.register name) (.immediate value) →
    s' name = img.width.word value
  /-- A copy of a register. -/
  copy : ∀ {name other}, i.operation = .move (.register name) (.register other) →
    s' name = s other
  /-- A load from an absolute or relative address gets the pointer there, if one is known. -/
  load : ∀ {name place p}, i.operation = .move (.register name) (.memory place) →
    place.index = none → (place.base = none ∨ place.base = some "rip") →
    img.resolve (s.address i place).toNat = .ok (some p) → p ≠ 0 → 0 ≤ p → p < img.width.span →
    s' name = img.width.word p
  /-- The address of a place. -/
  loadAddress : ∀ {name place}, i.operation = .loadAddress (.register name) (.memory place) →
    place.index = none → (∀ base ∈ place.base, base = "rip" ∨ img.width.IsFull base) →
    s' name = s.address i place
  /-- A sum. -/
  add : ∀ {name value}, i.operation = .add (.register name) (.immediate value) →
    s' name = s name + img.width.word value

/-- An instruction without a target may leave all registers as they are. -/
theorem Executes.idle {img : Image} {i : Instruction} {s : Registers img.width}
    (plain : i.target? = none) : Executes img i s s where
  call _ _ _ := rfl
  unchanged _ _ _ := rfl
  immediate is := by simp [Instruction.target?, is] at plain
  copy is := by simp [Instruction.target?, is] at plain
  load is := by simp [Instruction.target?, is] at plain
  loadAddress is := by simp [Instruction.target?, is] at plain
  add is := by simp [Instruction.target?, is] at plain

/-- From `s` on the instructions are executed one after the other; the last list has the pointers
    that they write. -/
inductive Runs (img : Image) : Registers img.width → List Instruction →
    List (PointerWrite img.width) → Prop where
  /-- No instruction is left. -/
  | nil {s : Registers img.width} : Runs img s [] []
  /-- One instruction, and those after it. -/
  | cons {s s' : Registers img.width} {i : Instruction} {rest : List Instruction}
      {writes : List (PointerWrite img.width)} : Executes img i s s' → Runs img s' rest writes →
      Runs img s (i :: rest) ((s.write? img i).toList ++ writes)

/-- What is reported of a store is true of what is written. -/
structure VptrStore.Reports {w : PointerWidth} (object : w.Word) (store : VptrStore)
    (write : PointerWrite w) : Prop where
  /-- The store is that instruction. -/
  site : store.site = write.site
  /-- The value is the word that is written. -/
  value : store.value = write.word.toNat
  /-- If the store is one into the object, the base register holds it. -/
  onThis : store.onThis = true → write.base = some object

/-! ### Agreement -/

/-- What is known is true of the registers. -/
structure Facts.Agrees {w : PointerWidth} (f : Facts) (object : w.Word) (s : Registers w) :
    Prop where
  /-- Constants are what registers hold. -/
  constants : ∀ {R v}, f.constant? R = some v → v = (s R).toNat
  /-- Registers said to hold the object hold it. -/
  object : ∀ {R}, f.holdsObject R = true → s R = object

/-- The address that is known of a place is where it is. -/
theorem MemoryOperand.address_of_effectiveAddress? {w : PointerWidth} {m : MemoryOperand}
    {i : Instruction} {a : Int} (known : m.effectiveAddress? w i = some a) (s : Registers w) :
    m.index = none ∧ (m.base = none ∨ m.base = some "rip") ∧ a = (s.address i m).toNat := by
  unfold effectiveAddress? at known
  split at known
  · cases known
  next plain =>
  have index : m.index = none := by simpa using plain
  unfold Registers.address
  -- The address is known only if it is absolute or relative to the next instruction.
  cases base : m.base with
  | none =>
    rw [base] at known
    cases known
    exact ⟨index, .inl rfl, (w.toNat_word _).symm⟩
  | some base =>
    rw [base] at known
    dsimp only at known ⊢
    split at known
    · next rip =>
      cases known
      rw [if_pos rip, ← w.word_add]
      exact ⟨index, .inr (congrArg some rip), (w.toNat_word _).symm⟩
    · cases known

/-- Half of a frame register is a frame register. -/
theorem PointerWidth.registerName_frameless (w : PointerWidth) {base : String}
    (frameless : base ∉ frameRegisters) : w.registerName base ∉ frameRegisters := by
  cases w with
  | narrow => exact frameless
  | wide =>
    -- The tables of register names are finite, so this is checked entry by entry.
    have halves : ∀ p ∈ halfRegisters, p.2 ∈ frameRegisters → p.1 ∈ frameRegisters := by
      decide +kernel
    unfold registerName
    cases found : halfRegisters.lookup base with
    | none => simpa [found] using frameless
    | some full =>
      have member : (base, full) ∈ halfRegisters := by
        obtain ⟨before, after, split, -⟩ := List.lookup_eq_some_iff.mp found
        rw [split]
        simp
      exact fun inside => frameless (halves _ member inside)

namespace Facts

variable {img : Image} {i : Instruction} {f next : Facts} {store : Option VptrStore}
  {object : img.width.Word} {s s' : Registers img.width}

/-- Nothing is read from the stack. -/
theorem readsObject_of_frameless {w : PointerWidth} {place : MemoryOperand}
    (frameless : ∀ base ∈ place.base, base ∉ frameRegisters) : f.readsObject w place = false := by
  have slot : place.stackSlot? w = none := by
    unfold MemoryOperand.stackSlot? MemoryOperand.baseRegister?
    cases based : place.base with
    | none => simp
    | some base =>
      have outside := w.registerName_frameless (frameless base (by simp [based]))
      simp [outside]
  -- The first argument on the stack is addressed from a frame register, too.
  have argument : place.isFirstArgument w = false := by
    have esp : place.base ≠ some "esp" := fun based => frameless "esp" based (by decide)
    have ebp : place.base ≠ some "ebp" := fun based => frameless "ebp" based (by decide)
    cases w <;> simp [MemoryOperand.isFirstArgument, esp, ebp]
  rw [readsObject, slot, argument]
  rfl

section

variable (agrees : f.Agrees object s) (full : i.IsFull img.width) (executes : Executes img i s s')
include agrees full executes

/-- A constant that an instruction makes known is what the machine puts into the register. -/
theorem Establishes.holds (inRange : i.LoadsInRange img) {R : String} {v : Int}
    (established : f.Establishes img i R v) : v = (s' R).toNat := by
  -- One case for each way in which a constant is made known; registers of full width are kept under
  -- their own names.
  cases established with
  | @immediate name value is named =>
    have target := full.registerName (r := name) (by simp [is, Operation.operands])
    rw [← named, target, executes.immediate is, img.width.toNat_word]
  | @copied name other value is named ne found =>
    have target := full.registerName (r := name) (by simp [is, Operation.operands])
    have source := full.registerName (r := other) (by simp [is, Operation.operands])
    rw [source] at found
    rw [← named, target, executes.copy is]
    exact agrees.constants found
  | @loaded name place address value is named _ addressed resolved nonzero =>
    have target := full.registerName (r := name) (by simp [is, Operation.operands])
    obtain ⟨index, base, rfl⟩ := place.address_of_effectiveAddress? addressed s
    obtain ⟨least, most⟩ := inRange is addressed resolved
    rw [← named, target, executes.load is index base resolved nonzero least most,
      img.width.toNat_word_of_range least most]
  | @address name place address is named addressed =>
    have target := full.registerName (r := name) (by simp [is, Operation.operands])
    obtain ⟨index, base, rfl⟩ := place.address_of_effectiveAddress? addressed s
    have known : ∀ register ∈ place.base, register = "rip" ∨ img.width.IsFull register := by
      intro register member
      rcases base with none | rip
      · rw [none] at member
        cases member
      · rw [rip] at member
        exact .inl (Option.mem_some_iff.mp member).symm
    rw [← named, target, executes.loadAddress is index known]
  | @sum name addend old is named found =>
    have target := full.registerName (r := name) (by simp [is, Operation.operands])
    rw [← named, target] at found
    rw [← named, target, executes.add is, agrees.constants found, ← img.width.toNat_word,
      img.width.word_add, img.width.word_toNat]

/-- A register that is made known to hold the object holds it. -/
theorem EstablishesObject.holds {R : String} (established : f.EstablishesObject img i R) :
    s' R = object := by
  cases established with
  | @copied name other is named ne found =>
    have target := full.registerName (r := name) (by simp [is, Operation.operands])
    have source := full.registerName (r := other) (by simp [is, Operation.operands])
    rw [source] at found
    rw [← named, target, executes.copy is]
    exact agrees.object found
  | @loaded name place is named found =>
    -- the object could only be read from the stack
    have frameless := full.operands (.memory place) (by simp [is, Operation.operands])
    rw [readsObject_of_frameless frameless] at found
    cases found

/-- **What is known stays true** when an instruction is executed. -/
theorem Agrees.step (apart : f.Apart) (inRange : i.LoadsInRange img)
    (stepped : f.Stepped img i next store) : next.Agrees object s' := by
  -- registers that are not overwritten
  have kept : ∀ {R}, R ∉ i.overwrites img.width → s' R = s R := by
    intro R outside
    by_cases call : i.operation = .call
    · exact executes.call call R (by simpa [Instruction.overwrites, call] using outside)
    · refine executes.unchanged call R fun changed => outside ?_
      have written := full.changed R changed
      exact (Instruction.mem_overwrites call).mpr ⟨R, changed, written, (full.written R written).2⟩
  refine ⟨fun {R v} found => ?constants, fun {R} found => ?object⟩
  case constants =>
    rcases stepped.constant found with established | ⟨old, outside⟩
    · exact established.holds agrees full executes inRange
    · rw [kept outside]
      exact agrees.constants old
  case object =>
    rcases stepped.object apart found with established | ⟨old, outside⟩
    · exact established.holds agrees full executes
    · rw [kept outside]
      exact agrees.object old

end

/-- The constant that is known of an operand is its value. -/
theorem Agrees.operand (agrees : f.Agrees object s) (full : i.IsFull img.width) {source : Operand}
    (member : source ∈ i.operation.operands) {v : Int}
    (known : f.operandConstant? img.width source = some v) :
    ∃ word, s.value? source = some word ∧ v = word.toNat := by
  cases source with
  | immediate value =>
    cases known
    exact ⟨_, rfl, (img.width.toNat_word value).symm⟩
  | register name =>
    replace known : f.constant? (img.width.registerName name) = some v := known
    rw [full.registerName member] at known
    exact ⟨_, rfl, agrees.constants known⟩
  | memory m => cases known

/-- A store that is reported is made. -/
theorem Agrees.reports (agrees : f.Agrees object s) (full : i.IsFull img.width)
    (stepped : f.Stepped img i next store) {reported : VptrStore} (found : store = some reported) :
    ∃ write, s.write? img i = some write ∧ reported.Reports object write := by
  -- Only a pointer that is moved to memory is reported.
  cases stepped with
  | @stored place source is pointer =>
    obtain ⟨v, known, rfl⟩ := Option.map_eq_some_iff.mp found
    obtain ⟨word, value, same⟩ := agrees.operand full (by simp [is, Operation.operands])
      (Option.filter_eq_some_iff.mp known).1
    refine ⟨{ site := i.address, word := word, base := (place.baseRegister? img.width).map s }, ?_,
      rfl, same, fun holds => ?_⟩
    · simp [Registers.write?, is, pointer, value]
    · show (place.baseRegister? img.width).map s = some object
      replace holds : (place.baseRegister? img.width).any f.holdsObject = true := holds
      cases base : place.baseRegister? img.width with
      | none => simp [base] at holds
      | some register =>
        rw [base] at holds
        exact congrArg some (agrees.object holds)
  | call => cases found
  | assigned => cases found
  | added => cases found
  | overwrote => cases found

/-- **The stores of a run** are made, in their order. -/
theorem Agrees.stores (agrees : f.Agrees object s) (apart : f.Apart) {code : List Instruction}
    (full : ∀ i ∈ code, i.IsFull img.width) (inRange : ∀ i ∈ code, i.LoadsInRange img)
    {reported : List VptrStore} (found : f.stores img code = .ok reported)
    {writes : List (PointerWrite img.width)} (runs : Runs img s code writes) :
    List.SublistForall₂ (VptrStore.Reports object) reported writes := by
  induction runs generalizing f reported with
  | nil =>
    cases found
    exact .nil
  | @cons s s' i rest writes executes _ ih =>
    obtain ⟨first, others⟩ := List.forall_mem_cons.mp full
    obtain ⟨ranged, after⟩ := List.forall_mem_cons.mp inRange
    obtain ⟨next, store, more, step, later, rfl⟩ := of_stores_cons found
    have stepped := stepped_of_step step
    have rest := ih (agrees.step first executes apart ranged stepped) (stepped.apart apart) others
      after later
    cases made : store with
    | none =>
      -- whether or not the machine writes a pointer here, none is reported
      cases s.write? img i with
      | none => exact rest
      | some write => exact .cons_right rest
    | some reported =>
      obtain ⟨write, written, reports⟩ := agrees.reports first stepped made
      rw [written]
      exact .cons reports rest

end Facts

/-- **Constant tracking is sound.**  In code of full width that does not address the frame, and that
    loads no pointer which a register cannot hold, the stores that are reported are among those that
    the machine makes when it executes the code, in this order: with the word that is written, and
    through a base register that holds the object if the store is said to be one into it. -/
theorem Image.storesIn_sound (img : Image) (listing : Listing) (maxSize : Bound) (g : Function)
    {code : List Instruction} (coded : img.codeOf listing maxSize g = .ok code)
    (full : ∀ i ∈ code, i.IsFull img.width) (inRange : ∀ i ∈ code, i.LoadsInRange img)
    {stores : List VptrStore} (found : img.storesIn listing maxSize g = .ok stores)
    {s : Registers img.width} {object : img.width.Word}
    (entry : ∀ r ∈ img.width.objectRegisters, s r = object)
    {writes : List (PointerWrite img.width)} (runs : Runs img s code writes) :
    List.SublistForall₂ (VptrStore.Reports object) stores writes := by
  -- At the entry nothing is known but where the object is.
  have agrees : (Facts.atEntry img.width).Agrees object s :=
    ⟨fun found => (by cases found), fun {R} holds => entry R (List.contains_iff_mem.mp holds)⟩
  rw [storesIn, coded] at found
  exact agrees.stores (Facts.apart_atEntry img.width) full inRange found runs

/-! ### A constructor -/

/-- The code of a constructor. -/
def Block.sampleText : Block where
  start := 0x1000
  data := ⟨#[0x48, 0x8b, 0x05, 0xf9, 0x0f, 0x00, 0x00, 0x48, 0x89, 0x07, 0xc3]⟩
  size := 11
  executable := true

/-- The address of a vtable. -/
def Block.samplePointer : Block where
  start := 0x2000
  data := ⟨(littleBytes 8 0x3000).toArray⟩
  size := 8

/-- A program with a constructor that loads the address of a vtable and stores it. -/
def Image.sampleConstructor : Image where
  width := .wide
  order := .little
  arch := "x86_64"
  abi := none
  blocks := [.sampleText, .samplePointer]
  symbols := [{ name := "_ZN1AC1Ev", address := 0x1000, size := 11, isFunction := true }]
  relocations := ∅
  ordered := by decide

/-- The load. -/
def Instruction.sampleLoad : Instruction :=
  ⟨0x1000, 7, .move (.register "rax") (.memory ⟨some "rip", none, 0xff9, 8⟩), ["rax"]⟩

/-- The store. -/
def Instruction.sampleStore : Instruction :=
  ⟨0x1007, 3, .move (.memory ⟨some "rdi", none, 0, 8⟩) (.register "rax"), []⟩

/-- The return. -/
def Instruction.sampleReturn : Instruction :=
  ⟨0x100a, 1, .ret, ["rsp"]⟩

/-- The registers when the constructor is entered, and with `value` in `rax`. -/
def Registers.sample (value : Int) : Registers .wide := fun r =>
  if r = "rdi" then PointerWidth.wide.word 0x7000 else
    if r = "rax" then PointerWidth.wide.word value else 0

/-- The word that the load reads is the address of the vtable. -/
theorem Image.resolve_samplePointer :
    Image.sampleConstructor.resolve 0x2000 = .ok (some 0x3000) :=
  toOption_eq_some_iff.mp (by decide +kernel)

/-- The load puts the vtable's address into `rax`. -/
theorem Executes.sampleLoad :
    Executes .sampleConstructor .sampleLoad (.sample 0) (.sample 0x3000) where
  call is := by cases is
  unchanged _ r other := by
    have ne : r ≠ "rax" := by
      simpa [Instruction.changes, Instruction.target?, Instruction.sampleLoad] using other
    show Registers.sample 0x3000 r = Registers.sample 0 r
    unfold Registers.sample
    rw [if_neg ne, if_neg ne]
  immediate is := by cases is
  copy is := by cases is
  load is _ _ found _ _ _ := by
    cases is
    -- The address is relative to the end of the instruction.
    have place : ((Registers.sample 0).address .sampleLoad ⟨some "rip", none, 0xff9, 8⟩).toNat =
        0x2000 := by decide +kernel
    replace found : Image.sampleConstructor.resolve
        (((Registers.sample 0).address .sampleLoad ⟨some "rip", none, 0xff9, 8⟩).toNat : Nat) =
      .ok (some _) := found
    rw [place] at found
    cases Image.resolve_samplePointer.symm.trans found
    rfl
  loadAddress is := by cases is
  add is := by cases is

/-- The vtable pointer that is loaded is the one that is stored into the object. -/
theorem Image.storesIn_sound_sample : ∃ stores writes,
    Image.sampleConstructor.storesIn [.sampleLoad, .sampleStore, .sampleReturn] (.whole 0x4000)
      { address := 0x1000, size := 11 } = .ok stores ∧
    stores = [{ site := 0x1007, value := 0x3000, onThis := true }] ∧
    Runs .sampleConstructor (.sample 0) [.sampleLoad, .sampleStore, .sampleReturn] writes ∧
    List.SublistForall₂ (VptrStore.Reports (PointerWidth.wide.word 0x7000)) stores writes := by
  have coded : Image.sampleConstructor.codeOf [.sampleLoad, .sampleStore, .sampleReturn]
      (.whole 0x4000) { address := 0x1000, size := 11 } =
        .ok [.sampleLoad, .sampleStore, .sampleReturn] :=
    toOption_eq_some_iff.mp (by decide +kernel)
  have found : Image.sampleConstructor.storesIn [.sampleLoad, .sampleStore, .sampleReturn]
      (.whole 0x4000) { address := 0x1000, size := 11 } =
        .ok [{ site := 0x1007, value := 0x3000, onThis := true }] :=
    toOption_eq_some_iff.mp (by decide +kernel)
  have full : ∀ i ∈ [Instruction.sampleLoad, .sampleStore, .sampleReturn], i.IsFull .wide := by
    decide +kernel
  have inRange : ∀ i ∈ [Instruction.sampleLoad, .sampleStore, .sampleReturn],
      i.LoadsInRange .sampleConstructor := by
    intro i member name place address p is addressed resolved
    simp only [List.mem_cons, List.not_mem_nil, or_false] at member
    rcases member with rfl | rfl | rfl
    · cases is
      have place : (⟨some "rip", none, 0xff9, 8⟩ : MemoryOperand).effectiveAddress? .wide
          .sampleLoad = some 0x2000 := by decide +kernel
      cases place.symm.trans addressed
      cases Image.resolve_samplePointer.symm.trans resolved
      decide +kernel
    · cases is
    · cases is
  have runs : Runs .sampleConstructor (.sample 0) [.sampleLoad, .sampleStore, .sampleReturn] _ :=
    .cons .sampleLoad (.cons (.idle rfl) (.cons (.idle rfl) .nil))
  have entry : ∀ r ∈ ["rdi"], Registers.sample 0 r = PointerWidth.wide.word 0x7000 := by
    intro r member
    rw [List.mem_singleton.mp member]
    rfl
  exact ⟨_, _, found, rfl, runs,
    storesIn_sound .sampleConstructor _ _ _ coded full inRange found entry runs⟩

end ItaniumRtti
