import ItaniumRtti.Elf.Image
import ItaniumRtti.Proofs.Elf.Record

namespace ItaniumRtti.Elf

/-!
# Writing files

A `Draft` describes a file by what it is to hold: the sections in order, each with its contents,
the entries of the symbol tables and those of the relocation tables.  Writing puts the header
first, then the contents of the sections, then the section table; how far the parts stand from each
other is up to the draft.

* `SymbolRecord`, `RelocationRecord`, `Body`, `Part`, `Draft` — what a file is to hold;
* `Draft.write` — the file;
* `Draft.Valid` — every number fits its field, and the string tables hold the names;
* `Draft.blocks`, `Draft.symbols`, `Draft.relocations` — what a reader should find;
* `Draft.stands_stored`, `Draft.stands_table`, `Draft.stands_header` — where the parts of the file
  stand.
-/

/-! ### Entries of tables -/

/-- An entry of a symbol table with all its numbers. -/
structure SymbolRecord where
  /-- Name, possibly empty. -/
  name : Name
  /-- Where the name stands in the string table. -/
  nameOffset : Nat
  /-- Value of the symbol. -/
  value : Nat
  /-- Number of bytes that it covers. -/
  size : Nat
  /-- Type and binding. -/
  info : Nat
  /-- Visibility. -/
  other : Nat
  /-- Section that it lies in, zero if it is not defined. -/
  sectionIndex : Nat

namespace SymbolRecord

/-- The first entry of every symbol table. -/
def null : SymbolRecord where
  name := .empty
  nameOffset := 0
  value := 0
  size := 0
  info := 0
  other := 0
  sectionIndex := 0

variable (r : SymbolRecord)

/-- The numbers of the entry, in the order in which they are written. -/
def numbers (width : PointerWidth) : List Nat :=
  match width with
  | .wide => [r.nameOffset, r.info, r.other, r.sectionIndex, r.value, r.size]
  | .narrow => [r.nameOffset, r.value, r.size, r.info, r.other, r.sectionIndex]

/-- The symbol that the entry stands for. -/
def symbol : Symbol where
  name := r.name.text
  address := r.value
  size := r.size
  isFunction := r.info % 16 = 2 || r.info % 16 = 10
  defined := r.sectionIndex ≠ 0

end SymbolRecord

/-- An entry of a relocation table with an addend. -/
structure RelocationRecord where
  /-- Address of the word. -/
  address : Nat
  /-- Symbol, as an index into the table's symbol table. -/
  symbolIndex : Nat
  /-- Machine-specific type. -/
  type : Nat
  /-- Addend. -/
  addend : Int

/-- The number of relocation types that can be written. -/
def typeSpan : PointerWidth → Nat
  | .wide => Nat.pow 2 32
  | .narrow => Nat.pow 2 8

/-- The number of symbols that a relocation can name. -/
def indexSpan : PointerWidth → Nat
  | .wide => Nat.pow 2 32
  | .narrow => Nat.pow 2 24

/-- The widths of the numbers of a relocation with an addend. -/
def Format.relocationWidths (fmt : Format) : List Nat :=
  [fmt.width.bytes, fmt.width.bytes, fmt.width.bytes]

namespace RelocationRecord

variable (r : RelocationRecord)

/-- The numbers of the entry.  Symbol and type share one field, and the addend is stored in two's
    complement. -/
def numbers (width : PointerWidth) : List Nat :=
  [r.address, r.symbolIndex * typeSpan width + r.type, (r.addend % width.span).toNat]

/-- The numbers of the entry are in range. -/
structure Fits (width : PointerWidth) : Prop where
  address : r.address < width.span
  symbolIndex : r.symbolIndex < indexSpan width
  type : r.type < typeSpan width
  addend : -(width.span : Int) ≤ 2 * r.addend ∧ 2 * r.addend < width.span

instance (width : PointerWidth) : Decidable (r.Fits width) :=
  decidable_of_iff
    (r.address < width.span ∧ r.symbolIndex < indexSpan width ∧ r.type < typeSpan width ∧
      -(width.span : Int) ≤ 2 * r.addend ∧ 2 * r.addend < width.span)
    ⟨fun h => ⟨h.1, h.2.1, h.2.2.1, h.2.2.2⟩, fun h => ⟨h.1, h.2, h.3, h.4⟩⟩

/-- What the entry does to its word on the given architecture, if it fills in a pointer: it stores
    the addend alone, or the addend plus the value of a symbol.  A symbol without name is not
    referred to, its value becomes part of the addend. -/
def pointer? (machine : Nat) (symbols : List SymbolRecord) : Option (Int × Relocation) :=
  let types := PointerTypes.ofMachine machine
  let plain : Int × Relocation := (r.address, { addend := r.addend, type := r.type })
  if r.type ∈ types.relative then some plain
  else if r.type ∈ types.absolute then
    if r.symbolIndex = 0 then some plain
    else (symbols[r.symbolIndex]?).map fun s =>
      if s.name.text = "" then (r.address, { addend := s.value + r.addend, type := r.type })
      else (r.address, { symbol := some s.name.text, addend := r.addend, type := r.type })
  else none

end RelocationRecord

/-! ### Sections -/

/-- The types of the sections that hold symbols or relocations. -/
def tableTypes : List Nat :=
  [Section.symbolTable, Section.dynamicSymbolTable, Section.relocations,
    Section.relocationsWithAddends]

/-- What a section holds. -/
inductive Body where
  /-- A symbol table, possibly the one for dynamic linking. -/
  | symbols (dynamic : Bool) (records : List SymbolRecord)
  /-- A table of relocations with addends. -/
  | relocations (records : List RelocationRecord)
  /-- Anything else. -/
  | other (type : Nat) (contents : List UInt8) (entrySize : Nat) (ordinary : type ∉ tableTypes)

namespace Body

/-- A string table. -/
def strings (contents : List UInt8) : Body :=
  other 3 contents 0 (by decide)

/-- The type of a section. -/
def type : Body → Nat
  | symbols dynamic _ => if dynamic then Section.dynamicSymbolTable else Section.symbolTable
  | relocations _ => Section.relocationsWithAddends
  | other type _ _ _ => type

/-- The bytes of a section, also of one whose contents are not part of the file. -/
def bytes (fmt : Format) : Body → List UInt8
  | symbols _ records =>
    (records.map (·.numbers fmt.width)).flatMap (pack fmt fmt.symbolWidths)
  | relocations records =>
    (records.map (·.numbers fmt.width)).flatMap (pack fmt fmt.relocationWidths)
  | other _ contents _ _ => contents

/-- The size of the entries of a section: that of a record, in a table. -/
def entrySize (fmt : Format) : Body → Nat
  | symbols _ _ => recordSize fmt.symbolWidths
  | relocations _ => recordSize fmt.relocationWidths
  | other _ _ entrySize _ => entrySize

/-- The entries of a symbol table. -/
def symbolRecords : Body → List SymbolRecord
  | symbols _ records => records
  | _ => []

/-- The entries of a relocation table. -/
def relocationRecords : Body → List RelocationRecord
  | relocations records => records
  | _ => []

/-- The bytes of a section that the file holds. -/
def stored (fmt : Format) (b : Body) : List UInt8 :=
  if b.type = Section.noContents then [] else b.bytes fmt

end Body

/-- A section of a draft. -/
structure Part where
  /-- Name of the section. -/
  name : Name
  /-- Where its name stands among the names. -/
  nameOffset : Nat
  /-- Properties, one bit each. -/
  flags : Nat
  /-- First address in memory. -/
  address : Nat
  /-- A section that it refers to. -/
  link : Nat
  /-- More about it. -/
  info : Nat
  /-- Alignment of its address. -/
  alignment : Nat
  /-- What it holds. -/
  body : Body
  /-- Bytes of the file that come before its contents. -/
  gap : List UInt8 := []
  /-- The offset that the file states if it holds none of the section's bytes. -/
  vacant : Nat := 0

namespace Part

/-- The first section of every file. -/
def null : Part where
  name := .empty
  nameOffset := 0
  flags := 0
  address := 0
  link := 0
  info := 0
  alignment := 0
  body := .other 0 [] 0 (by decide)

variable (part : Part)

/-- The numbers of the section's entry in the section table. -/
def numbers (fmt : Format) (offset : Nat) : List Nat :=
  [part.nameOffset, part.body.type, part.flags, part.address, offset,
    (part.body.bytes fmt).length, part.link, part.info, part.alignment, part.body.entrySize fmt]

/-- Whether the section is part of the program's memory: it is allocated, no thread has a copy of
    its own, and neither its size nor its address is zero. -/
def isBlock (fmt : Format) : Bool :=
  part.flags.testBit 1 && !part.flags.testBit 10 && (part.body.bytes fmt).length ≠ 0 &&
    part.address ≠ 0

/-- The section as a block of memory. -/
def block (fmt : Format) : Block where
  name := part.name.text
  start := part.address
  data := ⟨(part.body.stored fmt).toArray⟩
  size := (part.body.bytes fmt).length
  executable := part.flags.testBit 2
  writable := part.flags.testBit 0

end Part

/-- The parts with the offsets that the section table states, if the first gap starts at
    `start`. -/
def place (fmt : Format) : Nat → List Part → List (Nat × Part)
  | _, [] => []
  | start, part :: parts =>
    let stored := part.body.stored fmt
    (if stored = [] then part.vacant else start + part.gap.length, part) ::
      place fmt (start + part.gap.length + stored.length) parts

/-- The contents of the parts with the gaps before them. -/
def contentsOf (fmt : Format) (parts : List Part) : List UInt8 :=
  parts.flatMap fun part => part.gap ++ part.body.stored fmt

/-! ### Files -/

/-- A file that is to be written. -/
structure Draft where
  /-- Pointer size and byte order. -/
  format : Format
  /-- The ten bytes after those that name the format. -/
  ident : Vector UInt8 10
  /-- What the file is for. -/
  type : Nat
  /-- Number of the architecture. -/
  machine : Nat
  /-- Version of the file format. -/
  version : Nat
  /-- Address at which the program starts. -/
  entry : Nat
  /-- Offset of the program header table. -/
  programOffset : Nat
  /-- Processor-specific properties. -/
  flags : Nat
  /-- Size of the file header, as the file states it. -/
  headerSize : Nat
  /-- Distance between the entries of the program header table. -/
  programStride : Nat
  /-- Number of its entries. -/
  programCount : Nat
  /-- The sections in order. -/
  parts : List Part
  /-- The section that holds the sections' names. -/
  nameSection : Nat
  /-- Bytes before the section table. -/
  gap : List UInt8

/-- The bytes that name a format: one for the pointer size and one for the byte order. -/
def Format.marks (fmt : Format) : List UInt8 :=
  [if fmt.width = .wide then 2 else 1, if fmt.bigEndian then 2 else 1]

namespace Draft

variable (d : Draft)

/-- The number of bytes of the header. -/
def headerLength : Nat :=
  16 + recordSize d.format.headerWidths

/-- The sections with the offsets of their contents. -/
def placed : List (Nat × Part) :=
  place d.format d.headerLength d.parts

/-- The offset of the section table. -/
def tableOffset : Nat :=
  d.headerLength + (contentsOf d.format d.parts).length + d.gap.length

/-- The numbers of the header. -/
def headerNumbers : List Nat :=
  [d.type, d.machine, d.version, d.entry, d.programOffset, d.tableOffset, d.flags, d.headerSize,
    d.programStride, d.programCount, recordSize d.format.sectionWidths, d.parts.length,
    d.nameSection]

/-- The numbers of the section table. -/
def tableNumbers : List (List Nat) :=
  d.placed.map fun s => s.2.numbers d.format s.1

/-- The first sixteen bytes. -/
def identification : List UInt8 :=
  magic ++ (d.format.marks ++ d.ident.toList)

/-- The bytes of the file. -/
def bytes : List UInt8 :=
  d.identification ++ (pack d.format d.format.headerWidths d.headerNumbers ++
    (contentsOf d.format d.parts ++
      (d.gap ++ d.tableNumbers.flatMap (pack d.format d.format.sectionWidths))))

/-- The file. -/
def write : ByteArray :=
  ⟨d.bytes.toArray⟩

/-- The bytes of a section by its number, none if there is no such section. -/
def stringsOf (index : Nat) : List UInt8 :=
  ((d.parts[index]?).map fun part => part.body.stored d.format).getD []

/-- The entries of a symbol table by the number of its section, none if that holds something
    else. -/
def symbolRecords (index : Nat) : List SymbolRecord :=
  ((d.parts[index]?).map fun part => part.body.symbolRecords).getD []

/-- Every number of the draft fits its field, and the names stand where the draft says. -/
structure Valid : Prop where
  header : Within d.format.headerWidths d.headerNumbers
  table : ∀ numbers ∈ d.tableNumbers, Within d.format.sectionWidths numbers
  symbols : ∀ part ∈ d.parts, ∀ r ∈ part.body.symbolRecords,
    Within d.format.symbolWidths (r.numbers d.format.width)
  relocations : ∀ part ∈ d.parts, ∀ r ∈ part.body.relocationRecords, r.Fits d.format.width
  nameSection : 0 < d.nameSection
  names : ∀ part ∈ d.parts, part.name.In (d.stringsOf d.nameSection) part.nameOffset
  symbolNames : ∀ part ∈ d.parts, ∀ r ∈ part.body.symbolRecords,
    r.name.In (d.stringsOf part.link) r.nameOffset

/-! ### What a reader should find -/

/-- The blocks of memory, in the order of the sections. -/
def blocks : List Block :=
  (d.parts.filter (·.isBlock d.format)).map (·.block d.format)

/-- The named symbols, in order. -/
def symbols : List Symbol :=
  d.parts.flatMap fun part =>
    (part.body.symbolRecords.filter (·.name.text ≠ "")).map (·.symbol)

/-- The pointers that the relocations fill in, in order. -/
def relocations : List (Int × Relocation) :=
  d.parts.flatMap fun part =>
    part.body.relocationRecords.filterMap (·.pointer? d.machine (d.symbolRecords part.link))

end Draft

/-! ### Where the parts of a file stand -/

variable {fmt : Format} {start : Nat} {parts : List Part}

/-- Placing leaves the parts and their order as they are. -/
@[simp] theorem map_snd_place : (place fmt start parts).map Prod.snd = parts := by
  induction parts generalizing start with
  | nil => rfl
  | cons part parts ih => rw [place, List.map_cons, ih]

/-- The contents of every part stand where it was placed. -/
theorem stands_of_mem_place {data : ByteArray} (stands : Stands data start (contentsOf fmt parts))
    {s : Nat × Part} (mem : s ∈ place fmt start parts) :
    Stands data s.1 (s.2.body.stored fmt) := by
  induction parts generalizing start with
  | nil => cases mem
  | cons part parts ih =>
    rw [contentsOf, List.flatMap_cons, List.append_assoc] at stands
    rcases List.mem_cons.1 mem with rfl | mem
    · by_cases empty : part.body.stored fmt = []
      · simp only [empty]
        exact Stands.nil _ _
      · simp only [empty, if_false]
        exact stands.right.left
    · exact ih stands.right.right mem

namespace Draft

variable (d : Draft)

@[simp] theorem map_snd_placed : d.placed.map Prod.snd = d.parts :=
  map_snd_place

theorem getElem?_placed (index : Nat) : (d.placed[index]?).map Prod.snd = d.parts[index]? := by
  rw [← List.getElem?_map, d.map_snd_placed]

theorem mem_parts {s : Nat × Part} (mem : s ∈ d.placed) : s.2 ∈ d.parts :=
  d.map_snd_placed ▸ List.mem_map_of_mem mem

/-- The header proper comes after sixteen bytes. -/
@[simp] theorem length_identification : d.identification.length = 16 := by
  simp [identification, magic, Format.marks]

/-- The numbers of the header stand there. -/
theorem stands_header :
    Stands d.write 16 (pack d.format d.format.headerWidths d.headerNumbers) := by
  have after := (Stands.whole d.bytes).right
  rw [d.length_identification] at after
  exact after.left

variable {d} (valid : d.Valid)

include valid

/-- The contents of the sections stand after the header. -/
theorem stands_contents : Stands d.write d.headerLength (contentsOf d.format d.parts) := by
  have after := (Stands.whole d.bytes).right.right.left
  rwa [d.length_identification, Nat.zero_add, length_pack valid.header] at after

/-- The contents of each section stand at its offset. -/
theorem stands_stored {s : Nat × Part} (mem : s ∈ d.placed) :
    Stands d.write s.1 (s.2.body.stored d.format) :=
  stands_of_mem_place (stands_contents valid) mem

/-- The section table stands at the end. -/
theorem stands_table : Stands d.write d.tableOffset
    (d.tableNumbers.flatMap (pack d.format d.format.sectionWidths)) := by
  have after := (Stands.whole d.bytes).right.right.right.right
  rwa [d.length_identification, Nat.zero_add, length_pack valid.header] at after

end Draft

end ItaniumRtti.Elf
