namespace ItaniumRtti

/-!
# Instructions

Machine code is given as a listing of decoded instructions.

* `Operand`, `Operation`, `Instruction` — what the analysis needs to know about an instruction;
* `Listing` — the decoded instructions of a program;
* `Listing.at?` — the instruction at an address;
* `Listing.runFrom` — the instructions of a stretch of code.
-/

/-- An operand in memory. -/
structure MemoryOperand where
  /-- Base register. -/
  base : Option String
  /-- Index register. -/
  index : Option String
  /-- Displacement. -/
  displacement : Int
  /-- Number of bytes accessed. -/
  size : Int
  deriving DecidableEq, Repr

/-- An operand of an instruction. -/
inductive Operand where
  /-- A register. -/
  | register (name : String)
  /-- An immediate value. -/
  | immediate (value : Int)
  /-- A place in memory. -/
  | memory (place : MemoryOperand)
  deriving DecidableEq, Repr

/-- What an instruction does, as far as constants are concerned. -/
inductive Operation where
  /-- Copies the second operand to the first. -/
  | move (target source : Operand)
  /-- Writes the address of the second operand to the first. -/
  | loadAddress (target source : Operand)
  /-- Adds the second operand to the first. -/
  | add (target source : Operand)
  /-- Calls a function. -/
  | call
  /-- Returns from the function. -/
  | ret
  /-- Anything else. -/
  | other
  deriving DecidableEq, Repr

/-- A decoded instruction. -/
structure Instruction where
  /-- Address of the first byte. -/
  address : Int
  /-- Number of bytes. -/
  size : Int
  /-- What it does. -/
  operation : Operation
  /-- Registers that it writes. -/
  written : List String
  deriving DecidableEq, Repr

/-- The decoded instructions of a program. -/
abbrev Listing := List Instruction

namespace Listing

/-- The instruction at `address`. -/
def at? (listing : Listing) (address : Int) : Option Instruction :=
  listing.find? (·.address == address)

/-- The instructions from `address` on, each where the one before ends, as long as they end at or
    before `stop`.  `fuel` bounds their number. -/
def runFrom (listing : Listing) (stop : Int) : Nat → Int → List Instruction
  | 0, _ => []
  | fuel + 1, address =>
    match listing.at? address with
    | none => []
    | some i =>
      if i.address + i.size ≤ stop then i :: runFrom listing stop fuel (i.address + i.size) else []

/-- The instructions of the code between `start` and `stop`. -/
def run (listing : Listing) (start stop : Int) : List Instruction :=
  listing.runFrom stop listing.length start

end Listing

end ItaniumRtti
