import ItaniumRtti.Elf.Section

namespace ItaniumRtti.Elf

/-!
# Symbol tables

* `SymbolEntry` — an entry of a symbol table;
* `File.symbolEntries` — the entries of the symbol table that is a given section;
* `File.symbols` — the named symbols of all symbol tables.
-/

/-- An entry of a symbol table. -/
structure SymbolEntry where
  /-- Name, empty if it has none. -/
  name : String
  /-- Value of the symbol. -/
  value : Nat
  /-- Number of bytes that it covers. -/
  size : Nat
  /-- Type and binding. -/
  info : Nat
  /-- Section that it lies in, zero if it is not defined. -/
  sectionIndex : Nat
  deriving DecidableEq, Repr

namespace SymbolEntry

/-- Whether the symbol names a function, possibly one that is chosen when the program starts. -/
def isFunction (e : SymbolEntry) : Bool :=
  e.info % 16 = 2 || e.info % 16 = 10

/-- Whether the symbol is defined in the file. -/
def defined (e : SymbolEntry) : Bool :=
  e.sectionIndex ≠ 0

/-- The symbol of an entry. -/
def symbol (e : SymbolEntry) : Symbol where
  name := e.name
  address := e.value
  size := e.size
  isFunction := e.isFunction
  defined := e.defined

/-- The entry with the given numbers, its name taken from the given string table. -/
def ofNumbers? (width : PointerWidth) (names : List UInt8) (numbers : List Nat) :
    Option SymbolEntry :=
  match width, numbers with
  | .wide, [name, info, _, sectionIndex, value, size] =>
    some { name := stringAt names name, value, size, info, sectionIndex }
  | .narrow, [name, value, size, info, _, sectionIndex] =>
    some { name := stringAt names name, value, size, info, sectionIndex }
  | _, _ => none

end SymbolEntry

/-- The widths of the numbers of a symbol table entry. -/
def Format.symbolWidths (fmt : Format) : List Nat :=
  match fmt.width with
  | .wide => [4, 1, 1, 2, 8, 8]
  | .narrow => [4, 4, 4, 1, 1, 2]

/-- Whether a section is a symbol table. -/
def Section.holdsSymbols (s : Section) : Bool :=
  s.type = Section.symbolTable || s.type = Section.dynamicSymbolTable

namespace File

variable (f : File)

/-- The entries of a symbol table. -/
def symbolsOf (s : Section) : List SymbolEntry :=
  let names := ((f.sections[s.link]?).map (·.wholeContents f.data)).getD []
  (tableAt f.format f.data f.format.symbolWidths s.offset s.entrySize s.size).filterMap
    (SymbolEntry.ofNumbers? f.format.width names)

/-- The entries of the symbol table that is section number `index`, none if it is something
    else. -/
def symbolEntries (index : Nat) : List SymbolEntry :=
  match f.sections[index]? with
  | none => []
  | some s => if s.holdsSymbols then f.symbolsOf s else []

/-- The named symbols of all symbol tables, in order. -/
def symbols : List Symbol :=
  ((f.sections.filter (·.holdsSymbols)).flatMap fun s =>
    (f.symbolsOf s).filter (·.name ≠ "")).map (·.symbol)

end File

end ItaniumRtti.Elf
