import Mathlib.Data.List.Basic
import ItaniumRtti.Proofs.Elf.Draft

namespace ItaniumRtti.Elf

/-!
# Reading what was written

A file that was written from a valid draft reads back as the draft: its sections in order, the
entries of its symbol tables with their names, and the pointers that its relocations fill in, for
both pointer sizes and byte orders and on every architecture.

* `Part.entry` — a section of the draft as a reader sees it, `Draft.file` — the whole file;
* `Draft.parse?_eq` — the reader finds that file;
* `Draft.symbolsOf_file`, `Draft.relocationEntries_file` — the tables read back;
* `RelocationRecord.relocationOf_entry` — what a relocation does to its word;
* `Draft.parse?_write` — blocks, symbols and relocations are those of the draft.
-/

/-! ### Entries of tables -/

namespace SymbolRecord

variable (r : SymbolRecord)

/-- The entry as a reader sees it. -/
def entry : SymbolEntry where
  name := r.name.text
  value := r.value
  size := r.size
  info := r.info
  sectionIndex := r.sectionIndex

/-- A symbol reads back if its name stands where it says. -/
theorem ofNumbers?_numbers (width : PointerWidth) {names : List UInt8}
    (named : r.name.In names r.nameOffset) :
    SymbolEntry.ofNumbers? width names (r.numbers width) = some r.entry := by
  have name : stringAt names r.nameOffset = r.name.text := r.name.stringAt_of_in named
  cases width <;> rw [entry, ← name] <;> rfl

end SymbolRecord

namespace Format

variable (fmt : Format)

/-- With the sixteen bytes before it, no header is shorter than the shortest that the reader
    accepts. -/
theorem headerWidths_ge : 36 ≤ recordSize fmt.headerWidths := by
  rw [headerWidths]
  cases fmt.width <;> decide

theorem sectionWidths_pos : 0 < recordSize fmt.sectionWidths := by
  rw [sectionWidths]
  cases fmt.width <;> decide

theorem symbolWidths_pos : 0 < recordSize fmt.symbolWidths := by
  rw [symbolWidths]
  cases fmt.width <;> decide

theorem relocationWidths_pos : 0 < recordSize fmt.relocationWidths := by
  rw [relocationWidths]
  cases fmt.width <;> decide

end Format

/-- Symbol and type come apart again. -/
theorem splitInfo_join (width : PointerWidth) (index : Nat) {type : Nat}
    (fits : type < typeSpan width) :
    splitInfo width (index * typeSpan width + type) = (index, type) := by
  have positive : 0 < typeSpan width := by omega
  have high : (index * typeSpan width + type) / typeSpan width = index := by
    rw [Nat.mul_comm, Nat.mul_add_div positive, Nat.div_eq_of_lt fits, Nat.add_zero]
  have low : (index * typeSpan width + type) % typeSpan width = type := by
    rw [Nat.mul_comm, Nat.mul_add_mod, Nat.mod_eq_of_lt fits]
  cases width <;> exact Prod.ext high low

/-- A number comes back from its two's complement. -/
theorem signedValue_emod (count : Nat) {n : Int}
    (fits : -(Nat.pow 256 count : Int) ≤ 2 * n ∧ 2 * n < (Nat.pow 256 count : Int)) :
    signedValue count (n % (Nat.pow 256 count : Nat)).toNat = n := by
  obtain ⟨low, high⟩ := fits
  rw [signedValue]
  by_cases sign : 0 ≤ n
  · have stored : n % (Nat.pow 256 count : Nat) = n := Int.emod_eq_of_lt sign (by omega)
    rw [stored, if_pos (by omega)]
    omega
  · have stored : n % (Nat.pow 256 count : Nat) = n + (Nat.pow 256 count : Nat) := by
      rw [← Int.add_emod_right, Int.emod_eq_of_lt (by omega) (by omega)]
    rw [stored, if_neg (by omega)]
    omega

namespace RelocationRecord

variable (r : RelocationRecord)

/-- The entry as a reader sees it. -/
def entry : RelocationEntry where
  address := r.address
  symbolIndex := r.symbolIndex
  type := r.type
  addend := some r.addend

/-- The numbers of a relocation that is in range can be written. -/
theorem within_numbers {fmt : Format} (fits : r.Fits fmt.width) :
    Within fmt.relocationWidths (r.numbers fmt.width) := by
  -- Symbol and type share a field of the width of a pointer, and their ranges fill it.
  have combined : r.symbolIndex * typeSpan fmt.width + r.type < fmt.width.span := by
    obtain ⟨-, index, type, -⟩ := fits
    have room : indexSpan fmt.width * typeSpan fmt.width = fmt.width.span := by
      cases fmt.width <;> decide
    have next : (r.symbolIndex + 1) * typeSpan fmt.width ≤ fmt.width.span :=
      room ▸ Nat.mul_le_mul_right _ index
    rw [Nat.succ_mul] at next
    omega
  have addend : (r.addend % fmt.width.span).toNat < fmt.width.span := by
    have positive : (0 : Int) < fmt.width.span := by cases fmt.width <;> decide
    have := Int.emod_nonneg r.addend (Int.ne_of_gt positive)
    have := Int.emod_lt_of_pos r.addend positive
    omega
  exact .cons fits.address (.cons combined (.cons addend .nil))

/-- Such a relocation reads back. -/
theorem ofNumbers?_numbers {width : PointerWidth} (fits : r.Fits width) :
    RelocationEntry.ofNumbers? width (r.numbers width) = some r.entry := by
  have info := splitInfo_join width r.symbolIndex fits.type
  have addend : signedValue width.bytes (r.addend % width.span).toNat = r.addend :=
    signedValue_emod width.bytes fits.addend
  rw [numbers, RelocationEntry.ofNumbers?, info, addend]
  rfl

/-- What the reader makes of an entry is what the entry does to its word. -/
theorem relocationOf_entry (f : File) (symbols : List SymbolRecord) :
    f.relocationOf (symbols.map (·.entry)) r.entry = r.pointer? f.header.machine symbols := by
  rw [File.relocationOf, pointer?]
  simp only [List.contains_eq_mem, List.getElem?_map]
  -- The types are tried in the same order on both sides.
  by_cases relative : r.type ∈ (PointerTypes.ofMachine f.header.machine).relative
  · simp [entry, relative]
  by_cases absolute : r.type ∈ (PointerTypes.ofMachine f.header.machine).absolute
  · by_cases index : r.symbolIndex = 0
    · simp [entry, relative, absolute, index]
    · cases found : symbols[r.symbolIndex]? with
      | none => simp [entry, relative, absolute, index, found]
      | some s =>
        by_cases unnamed : s.name.text = "" <;>
          simp [entry, SymbolRecord.entry, relative, absolute, index, found, unnamed]
  · simp [entry, relative, absolute]

end RelocationRecord

/-! ### Sections -/

/-- The format of a file is read from its two marks. -/
theorem Format.ofData_of_stands {data : ByteArray} {fmt : Format}
    (stands : Stands data 4 fmt.marks) : Format.ofData data = fmt := by
  have widthMark : bytesAt data 4 1 = [if fmt.width = .wide then 2 else 1] := by
    have first : Stands data 4 ([_] ++ [_]) := stands
    exact first.left
  have orderMark : bytesAt data 5 1 = [if fmt.bigEndian then 2 else 1] := by
    have both : Stands data 4 ([_] ++ [_]) := stands
    exact both.right
  obtain ⟨width, bigEndian⟩ := fmt
  rw [Format.ofData, widthMark, orderMark]
  cases width <;> cases bigEndian <;> rfl

namespace Part

variable (part : Part) (fmt : Format)

/-- The section as a reader sees it, under a given name. -/
def entry (name : String) (offset : Nat) : Section where
  name := name
  nameOffset := part.nameOffset
  type := part.body.type
  flags := part.flags
  address := part.address
  offset := offset
  size := (part.body.bytes fmt).length
  link := part.link
  entrySize := part.body.entrySize fmt

variable {part fmt} {data : ByteArray} {offset : Nat}

/-- The reader finds the stored bytes of a section. -/
theorem wholeContents_entry (name : String)
    (stands : Stands data offset (part.body.stored fmt)) :
    (part.entry fmt name offset).wholeContents data = part.body.stored fmt := by
  rw [Body.stored] at stands ⊢
  by_cases absent : part.body.type = Section.noContents
  · simp [Section.wholeContents, entry, absent]
  · rw [if_neg absent] at stands ⊢
    by_cases past : data.size < offset + (part.body.bytes fmt).length
    · -- only a section without bytes can be stated to lie past the end of the file
      have empty : part.body.bytes fmt = [] := by
        by_contra nonempty
        exact absurd (stands.le_size nonempty) (Nat.not_le.2 past)
      rw [empty]
      simp [Section.wholeContents, entry, empty] at past ⊢
      omega
    · have present : (decide (part.body.type = Section.noContents) ||
          decide (data.size < offset + (part.body.bytes fmt).length)) = false := by
        simp [absent, past]
      exact (if_neg (Bool.not_eq_true _ ▸ present)).trans stands

/-- It finds the same bytes when it fills a block. -/
theorem contents_entry (name : String) (stands : Stands data offset (part.body.stored fmt)) :
    (part.entry fmt name offset).contents data = ⟨(part.body.stored fmt).toArray⟩ := by
  rw [Body.stored] at stands ⊢
  by_cases absent : part.body.type = Section.noContents
  · rw [if_pos absent]
    exact if_pos absent
  · rw [if_neg absent] at stands ⊢
    exact (if_neg absent).trans stands.clip

end Part

namespace Body

variable {fmt : Format}

/-- A section that is no table has none of their types. -/
theorem ne_of_ordinary {type : Nat} (ordinary : type ∉ tableTypes) :
    type ≠ Section.symbolTable ∧ type ≠ Section.dynamicSymbolTable ∧
      type ≠ Section.relocations ∧ type ≠ Section.relocationsWithAddends := by
  simpa [tableTypes] using ordinary

/-- The contents of a symbol table are part of the file. -/
theorem stored_symbols (dynamic : Bool) (records : List SymbolRecord) :
    (symbols dynamic records).stored fmt = (symbols dynamic records).bytes fmt := by
  refine if_neg ?_
  cases dynamic <;> simp [type, Section.symbolTable, Section.dynamicSymbolTable, Section.noContents]

/-- So are those of a relocation table. -/
theorem stored_relocations (records : List RelocationRecord) :
    (relocations records).stored fmt = (relocations records).bytes fmt := by
  refine if_neg ?_
  simp [type, Section.relocationsWithAddends, Section.noContents]

end Body

/-! ### Files -/

namespace Draft

variable (d : Draft)

/-- The header as a reader sees it. -/
def header : Header where
  type := d.type
  machine := d.machine
  sectionOffset := d.tableOffset
  sectionStride := recordSize d.format.sectionWidths
  sectionCount := d.parts.length
  nameSection := d.nameSection

/-- The sections as a reader sees them, with names given by `name`. -/
def entries (name : Part → String) : List Section :=
  d.placed.map fun s => s.2.entry d.format (name s.2) s.1

/-- The file as a reader sees it. -/
def file : File where
  data := d.write
  format := d.format
  header := d.header
  sections := d.entries (·.name.text)

/-- What depends on the parts alone may be computed on the placed parts. -/
theorem flatMap_placed {β : Type} {g : Nat × Part → List β} {h : Part → List β}
    (agree : ∀ s ∈ d.placed, g s = h s.2) : d.placed.flatMap g = d.parts.flatMap h := by
  rw [← d.map_snd_placed, List.flatMap_map]
  exact List.flatMap_congr agree

variable {d} (valid : d.Valid)

include valid

/-- The reader finds the bytes of each section by its number. -/
theorem wholeContents_entries (name : Part → String) (index : Nat) :
    (((d.entries name)[index]?).map (·.wholeContents d.write)).getD [] = d.stringsOf index := by
  rw [stringsOf, ← d.getElem?_placed, entries, List.getElem?_map]
  cases found : d.placed[index]? with
  | none => rfl
  | some s =>
    have mem : s ∈ d.placed := List.mem_of_getElem? found
    exact Part.wholeContents_entry _ (stands_stored valid mem)

/-- The header reads back. -/
theorem header_read? : Header.read? d.format d.write = some d.header := by
  have positive : 0 < recordSize d.format.headerWidths :=
    Nat.lt_of_lt_of_le (by decide) d.format.headerWidths_ge
  rw [Header.read?, record?_of_stands positive valid.header d.stands_header]
  rfl

/-- The section table reads back, without names. -/
theorem records_eq :
    (recordsAt d.format d.write d.format.sectionWidths d.tableOffset
      (recordSize d.format.sectionWidths) d.parts.length).filterMap Section.ofNumbers? =
        d.entries fun _ => "" := by
  have count : d.tableNumbers.length = d.parts.length := by
    rw [tableNumbers, List.length_map, ← d.map_snd_placed, List.length_map]
  rw [← count, recordsAt_of_stands d.format.sectionWidths_pos valid.table (stands_table valid),
    tableNumbers, List.filterMap_map]
  exact List.filterMap_eq_map_iff_forall_eq_some.2 fun s _ => rfl

/-- The names of the sections read back. -/
theorem nameSections_entries :
    nameSections d.write d.nameSection (d.entries fun _ => "") = d.entries (·.name.text) := by
  have strings := wholeContents_entries valid (fun _ => "") d.nameSection
  have named : ∀ s ∈ d.placed, s.2.name.In (d.stringsOf d.nameSection) s.2.nameOffset :=
    fun s mem => valid.names _ (d.mem_parts mem)
  rw [nameSections, if_neg (Nat.pos_iff_ne_zero.1 valid.nameSection)]
  cases found : (d.entries fun _ => "")[d.nameSection]? with
  | none =>
    -- without a section that holds the names no section can have one
    rw [found] at strings
    refine List.map_congr_left fun s mem => ?_
    have inside := named s mem
    rw [← strings] at inside
    simp [Name.In] at inside
  | some names =>
    rw [found] at strings
    have table : names.wholeContents d.write = d.stringsOf d.nameSection := strings
    simp only [table, entries, List.map_map]
    refine List.map_congr_left fun s mem => ?_
    rw [Function.comp_apply, ← s.2.name.stringAt_of_in (named s mem)]
    rfl

/-- The section table reads back, and every section has its name. -/
theorem readSections_eq :
    readSections d.format d.write d.header = d.entries (·.name.text) := by
  have start : d.header.sectionOffset ≠ 0 := by
    show d.headerLength + _ + _ ≠ 0
    rw [headerLength]
    omega
  rw [readSections, if_neg start, ← nameSections_entries valid, ← records_eq valid]
  rfl

/-- The reader finds the file that was written. -/
theorem parse?_eq : File.parse? d.write = some d.file := by
  have start : Stands d.write 0 (magic ++ (d.format.marks ++ d.ident.toList)) :=
    (Stands.whole d.bytes).left
  have format : Format.ofData d.write = d.format := Format.ofData_of_stands start.right.left
  have long : ¬ d.write.size < shortestHeader := by
    have length := @length_pack d.format _ _ valid.header
    have least := d.format.headerWidths_ge
    have nonempty : pack d.format d.format.headerWidths d.headerNumbers ≠ [] :=
      List.ne_nil_of_length_pos (by omega)
    have inside := d.stands_header.le_size nonempty
    rw [shortestHeader]
    omega
  -- The reader rejects what is too short or begins otherwise; a written file is neither.
  have accepted : (decide (d.write.size < shortestHeader) ||
      decide (bytesAt d.write 0 4 ≠ magic)) = false := by
    have marked : bytesAt d.write 0 4 = magic := start.left
    simp [long, marked]
  refine (if_neg (Bool.not_eq_true _ ▸ accepted)).trans ?_
  simp only [format]
  rw [header_read? valid, Option.map_some, readSections_eq valid]
  rfl

end Draft

/-! ### Tables -/

/-- Leaving elements out is the same as making nothing of them. -/
theorem flatMap_filter {α β : Type} (q : α → Bool) (g : α → List β) (l : List α) :
    (l.filter q).flatMap g = l.flatMap fun a => if q a then g a else [] := by
  induction l with
  | nil => rfl
  | cons a l ih =>
    rw [List.flatMap_cons, ← ih]
    by_cases holds : q a <;> simp [holds]

/-- A table reads back entry by entry. -/
theorem tableAt_filterMap {α β : Type} {fmt : Format} {data : ByteArray} {widths : List Nat}
    {offset : Nat} {records : List α} {numbers : α → List Nat} {read : List Nat → Option β}
    {entry : α → β} (positive : 0 < recordSize widths)
    (within : ∀ r ∈ records, Within widths (numbers r))
    (readBack : ∀ r ∈ records, read (numbers r) = some (entry r))
    (stands : Stands data offset ((records.map numbers).flatMap (pack fmt widths))) :
    (tableAt fmt data widths offset (recordSize widths)
      ((records.map numbers).flatMap (pack fmt widths)).length).filterMap read =
        records.map entry := by
  have fits : ∀ ns ∈ records.map numbers, Within widths ns := by
    intro ns mem
    obtain ⟨r, member, rfl⟩ := List.mem_map.1 mem
    exact within r member
  rw [tableAt_of_stands positive fits stands, List.filterMap_map]
  exact List.filterMap_eq_map_iff_forall_eq_some.2 readBack

namespace Draft

variable {d : Draft} (valid : d.Valid)

include valid

/-- The entries of the symbol tables read back, and nothing else is read as a symbol table. -/
theorem symbolsOf_file {s : Nat × Part} (mem : s ∈ d.placed) (name : String) :
    (if (s.2.entry d.format name s.1).holdsSymbols then
      d.file.symbolsOf (s.2.entry d.format name s.1) else []) =
        s.2.body.symbolRecords.map (·.entry) := by
  have stands := stands_stored valid mem
  have within := valid.symbols _ (d.mem_parts mem)
  have named := valid.symbolNames _ (d.mem_parts mem)
  have strings : ((d.file.sections[s.2.link]?).map (·.wholeContents d.file.data)).getD [] =
      d.stringsOf s.2.link := wholeContents_entries valid (·.name.text) s.2.link
  obtain ⟨offset, _, _, _, _, link, _, _, body, _⟩ := s
  cases body with
  | symbols dynamic records =>
    -- A reader tells a table by the type of its section, whichever of the two kinds it is.
    rw [Body.stored_symbols] at stands
    have isTable : ((Body.symbols dynamic records).type = Section.symbolTable ||
        (Body.symbols dynamic records).type = Section.dynamicSymbolTable) = true := by
      cases dynamic <;> rfl
    refine (if_pos isTable).trans ?_
    have readBack : ∀ r ∈ records, SymbolEntry.ofNumbers? d.format.width
        (((d.file.sections[link]?).map (·.wholeContents d.file.data)).getD [])
        (r.numbers d.format.width) = some r.entry := by
      intro r member
      rw [strings]
      exact r.ofNumbers?_numbers d.format.width (named r member)
    exact tableAt_filterMap d.format.symbolWidths_pos within readBack stands
  | relocations records => rfl
  | other type contents entrySize ordinary =>
    obtain ⟨symbolTable, dynamicTable, -, -⟩ := Body.ne_of_ordinary ordinary
    have noTable : (type = Section.symbolTable || type = Section.dynamicSymbolTable) = false := by
      simp [symbolTable, dynamicTable]
    exact if_neg (Bool.not_eq_true _ ▸ noTable)

/-- The entries of the relocation tables read back, and nothing else is read as one. -/
theorem relocationEntries_file {s : Nat × Part} (mem : s ∈ d.placed) (name : String) :
    d.file.relocationEntries (s.2.entry d.format name s.1) =
      s.2.body.relocationRecords.map (·.entry) := by
  have stands := stands_stored valid mem
  have fits := valid.relocations _ (d.mem_parts mem)
  obtain ⟨offset, _, _, _, _, link, _, _, body, _⟩ := s
  cases body with
  | symbols dynamic records => cases dynamic <;> rfl
  | relocations records =>
    rw [Body.stored_relocations] at stands
    exact tableAt_filterMap d.format.relocationWidths_pos
      (fun r member => r.within_numbers (fits r member))
      (fun r member => r.ofNumbers?_numbers (fits r member)) stands
  | other type contents entrySize ordinary =>
    obtain ⟨-, -, plain, withAddends⟩ := Body.ne_of_ordinary ordinary
    exact (if_neg withAddends).trans (if_neg plain)

/-- The table that a section refers to by number reads back. -/
theorem symbolEntries_file (index : Nat) :
    d.file.symbolEntries index = (d.symbolRecords index).map (·.entry) := by
  rw [symbolRecords, ← d.getElem?_placed]
  have section? : d.file.sections[index]? =
      (d.placed[index]?).map fun s => s.2.entry d.format s.2.name.text s.1 := List.getElem?_map
  rw [File.symbolEntries, section?]
  cases found : d.placed[index]? with
  | none => rfl
  | some s => exact symbolsOf_file valid (List.mem_of_getElem? found) _

/-! ### Whole files -/

/-- The blocks of memory read back. -/
theorem blocks_file : d.file.blocks = d.blocks := by
  have sections : d.file.sections = d.entries (·.name.text) := rfl
  rw [File.blocks, blocks, sections, entries, ← d.map_snd_placed, List.filter_map, List.filter_map,
    List.map_map, List.map_map]
  refine List.map_congr_left fun s mem => ?_
  have stands := stands_stored valid (List.mem_of_mem_filter mem)
  have contents := Part.contents_entry s.2.name.text stands
  simp only [Function.comp_apply, Part.block, ← contents]
  rfl

/-- The named symbols read back. -/
theorem symbols_file : d.file.symbols = d.symbols := by
  have sections : d.file.sections = d.entries (·.name.text) := rfl
  rw [File.symbols, symbols, sections, flatMap_filter, entries, List.flatMap_map, List.map_flatMap]
  refine d.flatMap_placed fun s mem => ?_
  -- filtering the entries of a table is the same before and after it was read
  have read := symbolsOf_file valid mem s.2.name.text
  have named : (s.2.body.symbolRecords.map (·.entry)).filter (·.name ≠ "") =
      (s.2.body.symbolRecords.filter (·.name.text ≠ "")).map (·.entry) := List.filter_map
  calc ((if (s.2.entry d.format s.2.name.text s.1).holdsSymbols then
          (d.file.symbolsOf (s.2.entry d.format s.2.name.text s.1)).filter (·.name ≠ "")
        else []).map (·.symbol))
      = ((if (s.2.entry d.format s.2.name.text s.1).holdsSymbols then
          d.file.symbolsOf (s.2.entry d.format s.2.name.text s.1) else []).filter
            (·.name ≠ "")).map (·.symbol) := by split <;> rfl
    _ = ((s.2.body.symbolRecords.filter (·.name.text ≠ "")).map (·.entry)).map (·.symbol) := by
        rw [read, named]
    _ = (s.2.body.symbolRecords.filter (·.name.text ≠ "")).map (·.symbol) := List.map_map

/-- The relocations read back, with the symbols that they name. -/
theorem relocations_file (loadable : d.type ≠ relocatableType) :
    d.file.relocations = d.relocations := by
  have linked : ¬ d.file.isRelocatable = true := by
    intro relocatable
    exact loadable (of_decide_eq_true relocatable)
  rw [File.relocations, if_neg linked, relocations]
  refine (List.flatMap_map _ _ _).trans (d.flatMap_placed fun s mem => ?_)
  have read := relocationEntries_file valid mem s.2.name.text
  have symbols : d.file.symbolEntries (s.2.entry d.format s.2.name.text s.1).link =
      (d.symbolRecords s.2.link).map (·.entry) := symbolEntries_file valid s.2.link
  simp only [read, symbols, List.filterMap_map]
  exact List.filterMap_congr fun r _ => r.relocationOf_entry d.file (d.symbolRecords s.2.link)

end Draft

/-- Reading gives back what was written: the file is accepted, and its blocks of memory, its named
    symbols and its pointer relocations are those of the draft. -/
theorem Draft.parse?_write (d : Draft) (valid : d.Valid) (loadable : d.type ≠ relocatableType) :
    ∃ f, File.parse? d.write = some f ∧ f.format = d.format ∧ f.header.type = d.type ∧
      f.header.machine = d.machine ∧ f.blocks = d.blocks ∧ f.symbols = d.symbols ∧
      f.relocations = d.relocations := by
  refine ⟨d.file, parse?_eq valid, rfl, rfl, rfl, ?_, ?_, ?_⟩
  · exact blocks_file valid
  · exact symbols_file valid
  · exact relocations_file valid loadable

/-- A file for 32-bit ARM, most significant byte first: code, memory without contents, a table of
    symbols for dynamic linking with its names, and relocations of every kind. -/
def Draft.sample : Draft where
  format := { width := .narrow, bigEndian := true }
  ident := Vector.replicate 10 0
  type := 3
  machine := machineArm
  version := 1
  entry := 0x8000
  programOffset := 0
  flags := 0
  headerSize := 52
  programStride := 0
  programCount := 0
  nameSection := 4
  gap := [0, 0]
  parts :=
    let f : Name := ⟨"f", by decide⟩
    let g : Name := ⟨"gf", by decide⟩
    [.null,
      { Part.null with
        name := f, nameOffset := 2, flags := 6, address := 0x8000,
        body := .other 1 [1, 2, 3, 4, 5, 6, 7, 8] 0 (by decide) },
      { Part.null with
        name := g, nameOffset := 1, flags := 3, address := 0x9000,
        body := .other Section.noContents (List.replicate 16 0) 0 (by decide) },
      { Part.null with
        flags := 2, address := 0xa000, link := 4, gap := [0],
        body := .symbols true
          [.null,
            { name := f, nameOffset := 2, value := 0x8000, size := 4, info := 0x12, other := 0,
              sectionIndex := 1 },
            { SymbolRecord.null with value := 0x9000, info := 3, sectionIndex := 2 },
            { name := g, nameOffset := 1, value := 0, size := 0, info := 0x11, other := 0,
              sectionIndex := 0 }] },
      { Part.null with body := .strings [0, 0x67, 0x66, 0] },
      { Part.null with
        link := 3,
        body := .relocations
          [{ address := 0x8004, symbolIndex := 0, type := 23, addend := 0x9000 },
            { address := 0x9000, symbolIndex := 1, type := 2, addend := -8 },
            { address := 0x9004, symbolIndex := 2, type := 21, addend := 4 },
            { address := 0x9008, symbolIndex := 9, type := 2, addend := 0 },
            { address := 0x900c, symbolIndex := 1, type := 3, addend := 0 }] }]

/-- Its numbers fit their fields, and its names stand where it says. -/
theorem Draft.valid_sample : Draft.sample.Valid where
  header := by decide +kernel
  table := by decide +kernel
  symbols := by decide +kernel
  relocations := by decide +kernel
  nameSection := by decide
  names := by decide +kernel
  symbolNames := by decide +kernel

/-- Every kind of entry comes back: memory with and without contents, symbols with and without
    definition, and of five relocations the three that fill in a pointer. -/
theorem Draft.parse?_write_sample :
    Draft.sample.Valid ∧ ∃ f, File.parse? Draft.sample.write = some f ∧
      f.blocks.map (fun b => (b.name, b.start, b.data.data.toList, b.size)) =
        [("f", 0x8000, [1, 2, 3, 4, 5, 6, 7, 8], 8), ("gf", 0x9000, [], 16),
          ("", 0xa000, Draft.sample.stringsOf 3, 64)] ∧
      f.symbols =
        [{ name := "f", address := 0x8000, size := 4, isFunction := true },
          { name := "gf", address := 0, defined := false }] ∧
      f.relocations =
        [(0x8004, { addend := 0x9000, type := 23 }),
          (0x9000, { symbol := some "f", addend := -8, type := 2 }),
          (0x9004, { addend := 0x9004, type := 21 })] := by
  obtain ⟨f, accepted, -, -, -, blocks, symbols, relocations⟩ :=
    Draft.parse?_write Draft.sample Draft.valid_sample (by decide)
  refine ⟨Draft.valid_sample, f, accepted, ?_, ?_, ?_⟩
  · rw [blocks]
    decide +kernel
  · rw [symbols]
    decide +kernel
  · rw [relocations]
    decide +kernel

end ItaniumRtti.Elf
