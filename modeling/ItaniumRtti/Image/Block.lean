import ItaniumRtti.Text.Number

namespace ItaniumRtti

/-!
# Blocks, symbols and relocations

The parts that an image of a program is made of.

* `Block` — a contiguous range of memory, with its contents;
* `Symbol` — a named address;
* `Relocation` — how the loader fills in a pointer;
* `Function` — a function, known by its entry address.
-/

/-- A contiguous range of the program's memory.  The contents may be shorter or longer than the
    range; a block without contents reads as zeros. -/
structure Block where
  /-- Name of the range. -/
  name : String := ""
  /-- First address. -/
  start : Int
  /-- Initialised contents. -/
  data : ByteArray := .empty
  /-- Number of addresses. -/
  size : Int
  /-- Whether the range holds code. -/
  executable : Bool := false
  /-- Whether the program may write to the range. -/
  writable : Bool := false

namespace Block

/-- The address after the last one. -/
def stop (b : Block) : Int :=
  b.start + b.size

/-- Whether the block has contents of its own. -/
def initialized (b : Block) : Bool :=
  0 < b.data.size

/-- Whether `length` bytes from `address` on lie in the block. -/
def contains (b : Block) (address : Int) (length : Int) : Bool :=
  b.start ≤ address && address + length ≤ b.stop

end Block

/-- A named address of the program. -/
structure Symbol where
  /-- Name, as the linker knows it. -/
  name : String
  /-- Value of the symbol. -/
  address : Int
  /-- Number of bytes it covers, zero if unknown. -/
  size : Int := 0
  /-- Whether it names a function. -/
  isFunction : Bool := false
  /-- Whether it is defined here rather than imported. -/
  defined : Bool := true
  deriving DecidableEq, Repr

/-- How the loader fills in a pointer-sized word: with the addend alone, or with the address of a
    symbol plus the addend. -/
structure Relocation where
  /-- Symbol that the value is relative to. -/
  symbol : Option String := none
  /-- Number added to the symbol's address. -/
  addend : Int := 0
  /-- Machine-specific type number. -/
  type : Int := 0
  deriving DecidableEq, Repr

/-- A function of the program. -/
structure Function where
  /-- Entry address. -/
  address : Int
  /-- Linker name. -/
  name : String := ""
  /-- Number of bytes, zero if unknown. -/
  size : Int := 0
  deriving DecidableEq, Repr

end ItaniumRtti
