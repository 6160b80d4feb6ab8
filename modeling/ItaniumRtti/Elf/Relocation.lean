import ItaniumRtti.Elf.Symbol

namespace ItaniumRtti.Elf

/-!
# Relocations

Only relocations that fill in a whole pointer matter here, and only in files that can be loaded.

* `PointerTypes` — the relocation types of an architecture that fill in a pointer;
* `RelocationEntry` — an entry of a relocation table;
* `File.implicitAddend` — the addend of an entry that does not hold one;
* `File.relocationOf` — what an entry does to its word;
* `File.relocations` — the pointer relocations of a file.
-/

/-- The relocation types of an architecture that fill in a pointer. -/
structure PointerTypes where
  /-- Types that store the address of a symbol plus an addend. -/
  absolute : List Nat := []
  /-- Types that store the addend alone. -/
  relative : List Nat := []
  deriving DecidableEq, Repr

/-- Number of the 32-bit x86 architecture. -/
def machineX86 : Nat := 3

/-- Number of the 32-bit ARM architecture. -/
def machineArm : Nat := 40

/-- Number of the 64-bit x86 architecture. -/
def machineX8664 : Nat := 62

/-- Number of the 64-bit ARM architecture. -/
def machineAArch64 : Nat := 183

/-- The pointer relocation types of an architecture. -/
def PointerTypes.ofMachine (machine : Nat) : PointerTypes :=
  if machine = machineX8664 || machine = machineX86 then { absolute := [1, 6], relative := [8] }
  else if machine = machineAArch64 then { absolute := [257, 1025], relative := [1027] }
  else if machine = machineArm then { absolute := [2, 21], relative := [23] }
  else {}

/-- An entry of a relocation table. -/
structure RelocationEntry where
  /-- Address of the word. -/
  address : Nat
  /-- Symbol, as an index into the table's symbol table. -/
  symbolIndex : Nat
  /-- Machine-specific type. -/
  type : Nat
  /-- Addend, if the table holds addends. -/
  addend : Option Int
  deriving DecidableEq, Repr

/-- The symbol index and the type that a relocation's combined field holds. -/
def splitInfo (width : PointerWidth) (info : Nat) : Nat × Nat :=
  match width with
  | .wide => (info / Nat.pow 2 32, info % Nat.pow 2 32)
  | .narrow => (info / Nat.pow 2 8, info % Nat.pow 2 8)

/-- The entry with the given numbers. -/
def RelocationEntry.ofNumbers? (width : PointerWidth) : List Nat → Option RelocationEntry
  | [address, info] =>
    let (symbolIndex, type) := splitInfo width info
    some { address, symbolIndex, type, addend := none }
  | [address, info, addend] =>
    let (symbolIndex, type) := splitInfo width info
    some { address, symbolIndex, type, addend := some (signedValue width.bytes addend) }
  | _ => none

/-- Type of a file that must be linked before it can be loaded. -/
def relocatableType : Nat := 1

namespace File

variable (f : File)

/-- Whether the file must be linked before it can be loaded. -/
def isRelocatable : Bool :=
  f.header.type = relocatableType

/-- The entries of a relocation table, none if the section is something else. -/
def relocationEntries (s : Section) : List RelocationEntry :=
  let ptr := f.format.width.bytes
  let table (widths : List Nat) : List RelocationEntry :=
    (tableAt f.format f.data widths s.offset s.entrySize s.size).filterMap
      (RelocationEntry.ofNumbers? f.format.width)
  if s.type = Section.relocationsWithAddends then table [ptr, ptr, ptr]
  else if s.type = Section.relocations then table [ptr, ptr]
  else []

/-- The word at `address` of a section in memory, if the section holds all of it. -/
def wordIn? (address : Nat) (s : Section) : Option Nat :=
  if s.allocated && s.address ≤ address && address < s.address + s.size then
    let word := ((s.wholeContents f.data).drop (address - s.address)).take f.format.width.bytes
    if word.length = f.format.width.bytes then some (f.format.number word) else none
  else none

/-- The addend that the word at `address` holds itself: the word in the first section that holds
    all of it, or zero. -/
def implicitAddend (address : Nat) (signed : Bool) : Int :=
  match f.sections.findSome? (f.wordIn? address) with
  | none => 0
  | some n => if signed then signedValue f.format.width.bytes n else n

/-- What an entry does to its word, if it fills in a pointer.  A symbol without name gives its
    value; an entry whose symbol does not exist is dropped. -/
def relocationOf (symbols : List SymbolEntry) (e : RelocationEntry) :
    Option (Int × Relocation) :=
  let types := PointerTypes.ofMachine f.header.machine
  let isAbsolute := types.absolute.contains e.type
  let isRelative := types.relative.contains e.type
  if !isAbsolute && !isRelative then none
  else
    let addend := e.addend.getD (f.implicitAddend e.address isAbsolute)
    if isRelative || e.symbolIndex = 0 then some (e.address, { addend, type := e.type })
    else match symbols[e.symbolIndex]? with
      | none => none
      | some s =>
        if s.name = "" then some (e.address, { addend := s.value + addend, type := e.type })
        else some (e.address, { symbol := some s.name, addend, type := e.type })

/-- The pointer relocations of a file that can be loaded, in order. -/
def relocations : List (Int × Relocation) :=
  if f.isRelocatable then []
  else f.sections.flatMap fun s =>
    let symbols := f.symbolEntries s.link
    (f.relocationEntries s).filterMap (f.relocationOf symbols)

end File

end ItaniumRtti.Elf
