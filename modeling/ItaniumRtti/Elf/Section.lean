import ItaniumRtti.Elf.Record
import ItaniumRtti.Text.Utf8

namespace ItaniumRtti.Elf

/-!
# Header and sections

* `Header` — the numbers of the file header that matter here;
* `Section` — an entry of the section table, with its name;
* `File` — a file with its header and sections;
* `File.parse?` — reads a file.
-/

/-- The numbers of the file header that matter here. -/
structure Header where
  /-- What the file is for. -/
  type : Nat
  /-- Number of the architecture. -/
  machine : Nat
  /-- Offset of the section table. -/
  sectionOffset : Nat
  /-- Distance between its entries. -/
  sectionStride : Nat
  /-- Number of its entries. -/
  sectionCount : Nat
  /-- The section that holds the sections' names. -/
  nameSection : Nat
  deriving DecidableEq, Repr

/-- An entry of the section table. -/
structure Section where
  /-- Name of the section. -/
  name : String := ""
  /-- Where its name stands among the names. -/
  nameOffset : Nat
  /-- What it holds. -/
  type : Nat
  /-- Properties, one bit each. -/
  flags : Nat
  /-- First address in memory. -/
  address : Nat
  /-- Offset of its contents in the file. -/
  offset : Nat
  /-- Number of bytes. -/
  size : Nat
  /-- A section that it refers to. -/
  link : Nat
  /-- Size of its records, if it is a table. -/
  entrySize : Nat
  deriving DecidableEq, Repr

namespace Section

/-- Type of a table of symbols. -/
def symbolTable : Nat := 2

/-- Type of a table of relocations with addends. -/
def relocationsWithAddends : Nat := 4

/-- Type of a section without contents in the file. -/
def noContents : Nat := 8

/-- Type of a table of relocations without addends. -/
def relocations : Nat := 9

/-- Type of the table of symbols for dynamic linking. -/
def dynamicSymbolTable : Nat := 11

variable (s : Section)

/-- Whether the program may write to the section. -/
def writable : Bool :=
  s.flags.testBit 0

/-- Whether the section is part of the program's memory. -/
def allocated : Bool :=
  s.flags.testBit 1

/-- Whether the section holds code. -/
def executable : Bool :=
  s.flags.testBit 2

/-- Whether each thread has a copy of the section. -/
def threadLocal : Bool :=
  s.flags.testBit 10

/-- The bytes of the section, clipped to the file. -/
def contents (data : ByteArray) : ByteArray :=
  if s.type = noContents then .empty else clip data s.offset s.size

/-- The bytes of the section, or none at all if it passes the file's end. -/
def wholeContents (data : ByteArray) : List UInt8 :=
  if s.type = noContents || data.size < s.offset + s.size then []
  else bytesAt data s.offset s.size

end Section

/-- The text that starts at `offset` of a string table and ends before a NUL or at its end. -/
def stringAt (table : List UInt8) (offset : Nat) : String :=
  decodeAscii ((table.drop offset).takeWhile (· ≠ 0))

/-- An ELF file. -/
structure File where
  /-- All bytes. -/
  data : ByteArray
  /-- Pointer size and byte order. -/
  format : Format
  /-- File header. -/
  header : Header
  /-- Sections in order. -/
  sections : List Section

/-! ### Reading -/

/-- The bytes that every ELF file begins with. -/
def magic : List UInt8 := [0x7f, 0x45, 0x4c, 0x46]

/-- Size of the shortest file header. -/
def shortestHeader : Nat := 52

/-- The format that the file's fifth and sixth bytes name. -/
def Format.ofData (data : ByteArray) : Format where
  width := if bytesAt data 4 1 = [2] then .wide else .narrow
  bigEndian := bytesAt data 5 1 ≠ [1]

/-- The widths of the header's numbers after its first 16 bytes. -/
def Format.headerWidths (fmt : Format) : List Nat :=
  let ptr := fmt.width.bytes
  [2, 2, 4, ptr, ptr, ptr, 4, 2, 2, 2, 2, 2, 2]

/-- The widths of the numbers of a section table entry. -/
def Format.sectionWidths (fmt : Format) : List Nat :=
  let ptr := fmt.width.bytes
  [4, 4, ptr, ptr, ptr, ptr, 4, 4, ptr, ptr]

/-- The header with the given numbers. -/
def Header.ofNumbers? : List Nat → Option Header
  | [type, machine, _, _, _, sectionOffset, _, _, _, _, sectionStride, sectionCount,
      nameSection] =>
    some { type, machine, sectionOffset, sectionStride, sectionCount, nameSection }
  | _ => none

/-- The section, still without name, with the given numbers. -/
def Section.ofNumbers? : List Nat → Option Section
  | [nameOffset, type, flags, address, offset, size, link, _, _, entrySize] =>
    some { nameOffset, type, flags, address, offset, size, link, entrySize }
  | _ => none

/-- The file header. -/
def Header.read? (fmt : Format) (data : ByteArray) : Option Header :=
  (record? fmt data fmt.headerWidths 16).bind ofNumbers?

/-- The sections with their names, if the file has names for sections. -/
def nameSections (data : ByteArray) (nameSection : Nat) (sections : List Section) :
    List Section :=
  if nameSection = 0 then sections
  else match sections[nameSection]? with
    | none => sections
    | some s =>
      let table := s.wholeContents data
      sections.map fun s => { s with name := stringAt table s.nameOffset }

/-- The sections of a file.  The table ends early where it passes the file's end. -/
def readSections (fmt : Format) (data : ByteArray) (h : Header) : List Section :=
  if h.sectionOffset = 0 then []
  else nameSections data h.nameSection
    ((recordsAt fmt data fmt.sectionWidths h.sectionOffset h.sectionStride
      h.sectionCount).filterMap Section.ofNumbers?)

/-- Reads a file, unless it is no ELF file. -/
def File.parse? (data : ByteArray) : Option File :=
  if data.size < shortestHeader || bytesAt data 0 4 ≠ magic then none
  else
    let format := Format.ofData data
    (Header.read? format data).map fun header =>
      { data, format, header, sections := readSections format data header }

end ItaniumRtti.Elf
