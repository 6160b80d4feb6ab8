import ItaniumRtti.Code.Instruction
import ItaniumRtti.Code.Store
import ItaniumRtti.Image.Read

namespace ItaniumRtti

/-!
# Constants in registers

One forward pass over a function's code remembers which registers hold a known constant, which
hold the object that the function was given, and which stack slots keep that object.  What is
overwritten, or clobbered by a call, is forgotten; branches are not followed.

* `PointerWidth.registerName` — a register under the name of its full width;
* `Facts` — what is known before an instruction;
* `MemoryOperand.effectiveAddress?`, `MemoryOperand.stackSlot?` — the place of a memory operand;
* `Facts.step` — what is known after an instruction, and the store that it makes;
* `Facts.stores` — the stores of a run of instructions.
-/

namespace PointerWidth

/-- Registers of half width that share their value with a full one. -/
def halfRegisters : List (String × String) :=
  [("eax", "rax"), ("ebx", "rbx"), ("ecx", "rcx"), ("edx", "rdx"),
   ("esi", "rsi"), ("edi", "rdi"), ("ebp", "rbp"), ("esp", "rsp"),
   ("r8d", "r8"), ("r9d", "r9"), ("r10d", "r10"), ("r11d", "r11"),
   ("r12d", "r12"), ("r13d", "r13"), ("r14d", "r14"), ("r15d", "r15")]

variable (w : PointerWidth)

/-- The register that `name` is a part of. -/
def registerName (name : String) : String :=
  match w with
  | .narrow => name
  | .wide => (halfRegisters.lookup name).getD name

/-- Registers that a called function may overwrite. -/
def callerSaved : List String :=
  match w with
  | .narrow => ["eax", "ecx", "edx"]
  | .wide => ["rax", "rcx", "rdx", "rsi", "rdi", "r8", "r9", "r10", "r11"]

/-- Registers that hold the object when a member function is entered. -/
def objectRegisters : List String :=
  match w with
  | .narrow => []
  | .wide => ["rdi"]

/-- The pointer that equals `value` modulo the number of pointers. -/
def wrap (value : Int) : Int :=
  value % w.span

end PointerWidth

/-- Registers that stack slots are addressed from. -/
def frameRegisters : List String := ["rbp", "rsp", "ebp", "esp"]

namespace MemoryOperand

variable (w : PointerWidth) (m : MemoryOperand)

/-- The base register under the name of its full width. -/
def baseRegister? : Option String :=
  m.base.map w.registerName

/-- The address of an operand that is absolute or relative to the instruction's end. -/
def effectiveAddress? (i : Instruction) : Option Int :=
  if m.index.isSome then none
  else match m.base with
    | none => some (w.wrap m.displacement)
    | some base =>
      if base = "rip" then some (w.wrap (i.address + i.size + m.displacement)) else none

/-- The frame register and displacement of an operand on the stack. -/
def stackSlot? : Option (String × Int) :=
  if m.index.isSome then none
  else (m.baseRegister? w).bind fun base =>
    if frameRegisters.contains base then some (base, m.displacement) else none

/-- Whether the operand is the first argument of a function that takes its arguments on the
    stack. -/
def isFirstArgument : Bool :=
  match w with
  | .wide => false
  | .narrow =>
    (m.base == some "esp" && m.displacement == 4) || (m.base == some "ebp" && m.displacement == 8)

end MemoryOperand

/-- What is known between two instructions. -/
structure Facts where
  /-- Registers that hold a known constant. -/
  constants : List (String × Int) := []
  /-- Registers that hold the object. -/
  object : List String := []
  /-- Stack slots that keep the object. -/
  slots : List (String × Int) := []
  deriving DecidableEq, Repr

namespace Facts

/-- What is known when a function is entered. -/
def atEntry (w : PointerWidth) : Facts where
  object := w.objectRegisters

variable (f : Facts)

/-- The constant that a register holds. -/
def constant? (register : String) : Option Int :=
  f.constants.lookup register

/-- Whether a register holds the object. -/
def holdsObject (register : String) : Bool :=
  f.object.contains register

/-- Nothing is known about `register` any more. -/
def forget (register : String) : Facts :=
  { f with
    constants := f.constants.filter (·.1 != register)
    object := f.object.filter (· != register) }

/-- Nothing is known about any of `registers` any more. -/
def forgetAll (registers : List String) : Facts :=
  registers.foldl forget f

/-- `register` holds the constant `value`. -/
def setConstant (register : String) (value : Int) : Facts :=
  { f with constants := (register, value) :: f.constants.filter (·.1 != register) }

/-- `register` holds the object. -/
def setObject (register : String) : Facts :=
  { f with object := register :: f.object.filter (· != register) }

/-- The stack slot, if there is one, keeps the object or does not. -/
def setSlot (slot : Option (String × Int)) (keepsObject : Bool) : Facts :=
  match slot with
  | none => f
  | some slot =>
    let others := f.slots.filter (· != slot)
    { f with slots := if keepsObject then slot :: others else others }

/-- What is known about an operand that is read: the constant it holds. -/
def operandConstant? (w : PointerWidth) : Operand → Option Int
  | .immediate value => some (w.wrap value)
  | .register name => f.constant? (w.registerName name)
  | .memory _ => none

/-- Whether an operand that is read is a register with the object. -/
def operandIsObject (w : PointerWidth) : Operand → Bool
  | .register name => f.holdsObject (w.registerName name)
  | _ => false

/-- The store of a constant other than zero that a move to `place` makes. -/
def storeOf? (w : PointerWidth) (i : Instruction) (place : MemoryOperand) (source : Operand) :
    Option VptrStore :=
  ((f.operandConstant? w source).filter (· ≠ 0)).map fun value =>
    { site := i.address, value := value,
      onThis := (place.baseRegister? w).any f.holdsObject }

/-- What is known after a move of `source` to `register`. -/
def afterMove (img : Image) (i : Instruction) (register : String) (source : Operand) :
    Except Fault Facts := do
  let w := img.width
  let rest := f.forget register
  match source with
  | .immediate value => return rest.setConstant register (w.wrap value)
  | .register name =>
    let source := w.registerName name
    let copied := match rest.constant? source with
      | some value => rest.setConstant register value
      | none => rest
    return if rest.holdsObject source then copied.setObject register else copied
  | .memory place =>
    if place.isFirstArgument w || (place.stackSlot? w).any f.slots.contains then
      return rest.setObject register
    match place.effectiveAddress? w i with
    | none => return rest
    | some address =>
      match ← img.resolve address with
      | none => return rest
      | some value => return if value = 0 then rest else rest.setConstant register value

/-- What is known after the address of `source` was written to `register`. -/
def afterLoadAddress (w : PointerWidth) (i : Instruction) (register : String) (source : Operand) :
    Facts :=
  let rest := f.forget register
  match source with
  | .memory place =>
    match place.effectiveAddress? w i with
    | some address => rest.setConstant register address
    | none => rest
  | _ => rest

/-- What is known after an instruction, and the store that it makes.  An instruction that is not
    interpreted only overwrites registers. -/
def step (img : Image) (i : Instruction) : Except Fault (Facts × Option VptrStore) := do
  let w := img.width
  let overwritten := fun (f : Facts) => f.forgetAll (i.written.map w.registerName)
  match i.operation with
  | .call => return (f.forgetAll w.callerSaved, none)
  | .move (.memory place) source =>
    let kept := f.setSlot (place.stackSlot? w) (f.operandIsObject w source)
    if place.size ≠ img.ptr then return (overwritten kept, none)
    return (kept, f.storeOf? w i place source)
  | .move (.register name) source =>
    return (← f.afterMove img i (w.registerName name) source, none)
  | .loadAddress (.register name) source =>
    return (f.afterLoadAddress w i (w.registerName name) source, none)
  | .add (.register name) (.immediate value) =>
    let register := w.registerName name
    match f.constant? register with
    | some old => return (f.setConstant register (w.wrap (old + value)), none)
    | none => return (overwritten f, none)
  | .loadAddress (.memory place) _ | .add (.memory place) _ =>
    return (overwritten (f.setSlot (place.stackSlot? w) false), none)
  | _ => return (overwritten f, none)

/-- The stores of a run of instructions. -/
def stores (img : Image) : Facts → List Instruction → Except Fault (List VptrStore)
  | _, [] => return []
  | f, i :: rest => do
    let (next, store) ← f.step img i
    return store.toList ++ (← stores img next rest)

end Facts

end ItaniumRtti
