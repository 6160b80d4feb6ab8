import ItaniumRtti.Proofs.Elf.AddressRange

namespace ItaniumRtti

/-!
# What a loader stores

A loader fills in a relocated word with the sum of a symbol's address and an addend, cut to the
size of a pointer.  Resolving the word gives the same sum over all integers, with the addend read
as a signed or an unsigned number, and cuts nothing off.

* `Elf.File.symbolValue?`, `Elf.File.addendOf` — the two numbers that a loader adds;
* `Elf.File.loaded?` — the pointer that it stores;
* `Elf.File.pointerOf?_eq` — the sum that resolving gives instead;
* `PointerWidth.Tracks` — two pointers are the same, or one span apart;
* `Elf.File.Matches` — files that may differ in how they hold their addends;
* `Elf.File.resolve_loaded` — how far resolving is from the loader's pointer.
-/

/-! ### Words -/

theorem PointerWidth.span_pos (width : PointerWidth) : 0 < width.span := by
  cases width <;> decide

/-- The signed reading of a word is the word, or one span below it. -/
theorem signedValue_cases (count n : Nat) :
    signedValue count n = n ∧ 2 * n < Nat.pow 256 count ∨
      signedValue count n = n - (Nat.pow 256 count : Nat) ∧ Nat.pow 256 count ≤ 2 * n := by
  rw [signedValue]
  split
  · next small => exact .inl ⟨rfl, small⟩
  · next large => exact .inr ⟨rfl, by omega⟩

/-- In two's complement a number is less than one span away from zero. -/
theorem signedValue_bounds {count n : Nat} (small : n < Nat.pow 256 count) :
    -(Nat.pow 256 count : Int) ≤ signedValue count n ∧
      signedValue count n < (Nat.pow 256 count : Nat) := by
  rcases signedValue_cases count n with ⟨same, -⟩ | ⟨below, -⟩ <;> omega

/-- How a resolved pointer stands to the one that a loader stores: it is the same if a pointer can
    hold it, and one span away if it is negative or too large. -/
def PointerWidth.Tracks (width : PointerWidth) (value loaded : Int) : Prop :=
  (0 ≤ value ∧ value < width.span ∧ value = loaded) ∨
    (value < 0 ∧ value = loaded - width.span) ∨ width.span ≤ value ∧ value = loaded + width.span

/-- Cutting a number to the size of a pointer adds or takes away at most one span if the number is
    at most one span out of range. -/
theorem PointerWidth.tracks_emod {width : PointerWidth} {value : Int} (low : -width.span ≤ value)
    (high : value < 2 * width.span) : width.Tracks value (value % width.span) := by
  by_cases negative : value < 0
  · have above : value % width.span = value + width.span := by
      rw [← Int.add_emod_right, Int.emod_eq_of_lt (by omega) (by omega)]
    exact .inr (.inl ⟨negative, by omega⟩)
  · by_cases small : value < width.span
    · exact .inl ⟨by omega, small, (Int.emod_eq_of_lt (by omega) small).symm⟩
    · have below : value % width.span = value - width.span := by
        rw [← Int.sub_emod_right, Int.emod_eq_of_lt (by omega) (by omega)]
      exact .inr (.inr ⟨by omega, by omega⟩)

/-! ### The relocation in effect -/

/-- A relocation is in effect at every address that has one. -/
theorem Image.exists_of_mem_indexRelocations {relocations : List (Int × Relocation)}
    {address : Int} (mem : address ∈ relocations.map (·.1)) :
    ∃ r, (indexRelocations relocations)[address]? = some r := by
  -- a word that is relocated stays so when more relocations are added
  have each : ∀ (relocations : List (Int × Relocation)) (index : Std.TreeMap Int Relocation),
      address ∈ relocations.map (·.1) ∨ (∃ r, index[address]? = some r) →
      ∃ r, (relocations.foldl (fun index r => index.insert r.1 r.2) index)[address]? = some r := by
    intro relocations
    induction relocations with
    | nil => exact fun index given => given.resolve_left List.not_mem_nil
    | cons first rest ih =>
      intro index given
      refine ih _ ?_
      by_cases here : first.1 = address
      · subst here
        exact .inr ⟨first.2, Std.TreeMap.getElem?_insert_self⟩
      · refine given.imp (fun mem => ?_) fun found => ?_
        · exact (List.mem_cons.mp mem).resolve_left (Ne.symm here)
        · obtain ⟨r, found⟩ := found
          refine ⟨r, ?_⟩
          rw [Std.TreeMap.getElem?_insert, if_neg (mt Std.LawfulEqCmp.eq_of_compare here)]
          exact found
  exact each relocations ∅ (.inl mem)

namespace Elf

namespace File

variable (f : File)

/-! ### The loader -/

/-- Whether an entry stores its addend alone. -/
def isRelative (e : RelocationEntry) : Bool :=
  (PointerTypes.ofMachine f.header.machine).relative.contains e.type

/-- Whether an entry stores the address of a symbol plus its addend. -/
def isAbsolute (e : RelocationEntry) : Bool :=
  (PointerTypes.ofMachine f.header.machine).absolute.contains e.type

/-- The word that the file holds for `address`, zero if no section has all of it. -/
def storedWord (address : Nat) : Nat :=
  (f.sections.findSome? (f.wordIn? address)).getD 0

/-- The addend of an entry: its own or, if the table holds none, the word that it applies to. -/
def addendOf (e : RelocationEntry) : Int :=
  e.addend.getD (f.storedWord e.address)

/-- Whether an entry fills in a pointer: it is of a type that does, and the symbol it names exists
    in the table. -/
def fills (symbols : List SymbolEntry) (e : RelocationEntry) : Bool :=
  (f.isAbsolute e || f.isRelative e) &&
    (f.isRelative e || e.symbolIndex = 0 || e.symbolIndex < symbols.length)

/-- The address of the symbol that an entry names, zero if it names none; nothing if the symbol is
    not defined in the program. -/
def symbolValue? (symbols : List SymbolEntry) (e : RelocationEntry) : Option Int :=
  if f.isRelative e || e.symbolIndex = 0 then some 0
  else (symbols[e.symbolIndex]?).bind fun s =>
    if s.name = "" then some s.value else f.image.symbolAddress? s.name

/-- The pointer that a loader stores for an entry: the sum of both, cut to the size of a pointer. -/
def loaded? (symbols : List SymbolEntry) (e : RelocationEntry) : Option Int :=
  (f.symbolValue? symbols e).map fun value => (value + f.addendOf e) % f.format.width.span

/-! ### The sum that resolving gives -/

/-- The addend as it is read: a word that stands for an absolute address is read as signed. -/
def readAddend (e : RelocationEntry) : Int :=
  e.addend.getD (f.implicitAddend e.address (f.isAbsolute e))

/-- The pointer that resolving gives for an entry, if it fills in a pointer. -/
def pointerOf? (symbols : List SymbolEntry) (e : RelocationEntry) : Option (Option Int) :=
  (f.relocationOf symbols e).map fun p => f.image.relocated? p.2

variable {f}

/-- A word of a section fits in a pointer. -/
theorem wordIn?_lt {address n : Nat} {s : Section} (read : f.wordIn? address s = some n) :
    n < f.format.width.span := by
  rw [wordIn?] at read
  split at read
  · obtain ⟨whole, same⟩ := Option.ite_none_right_eq_some.mp read
    have small := f.format.number_lt
      (((s.wholeContents f.data).drop (address - s.address)).take f.format.width.bytes)
    rw [whole, Option.some.inj same] at small
    exact small
  · cases read

/-- So does a stored word, wherever it comes from. -/
theorem storedWord_lt (f : File) (address : Nat) : f.storedWord address < f.format.width.span := by
  rw [storedWord]
  cases found : f.sections.findSome? (f.wordIn? address) with
  | none => exact f.format.width.span_pos
  | some n =>
    obtain ⟨s, -, read⟩ := List.exists_of_findSome?_eq_some found
    exact wordIn?_lt read

/-- An addend that the table does not hold is the stored word, signed or not. -/
theorem implicitAddend_eq (f : File) (address : Nat) (signed : Bool) :
    f.implicitAddend address signed =
      if signed then signedValue f.format.width.bytes (f.storedWord address)
      else f.storedWord address := by
  rw [implicitAddend, storedWord]
  cases f.sections.findSome? (f.wordIn? address) with
  | none => cases signed <;> cases f.format.width <;> rfl
  | some n => rfl

/-- The addend as it is read is the addend, or one span below it. -/
theorem readAddend_cases (f : File) (e : RelocationEntry) :
    f.readAddend e = f.addendOf e ∨ f.readAddend e = f.addendOf e - f.format.width.span := by
  rw [readAddend, addendOf]
  cases e.addend with
  | some addend => exact .inl rfl
  | none =>
    rw [Option.getD_none, Option.getD_none, implicitAddend_eq]
    cases f.isAbsolute e with
    | false => exact .inl rfl
    | true => exact (signedValue_cases _ _).imp And.left And.left

/-- What an entry does to its word, in terms of its addend as it is read. -/
theorem relocationOf_eq (f : File) (symbols : List SymbolEntry) (e : RelocationEntry) :
    f.relocationOf symbols e =
      if !f.isAbsolute e && !f.isRelative e then none
      else if f.isRelative e || e.symbolIndex = 0 then
        some ((e.address : Int), ({ addend := f.readAddend e, type := e.type } : Relocation))
      else (symbols[e.symbolIndex]?).map fun s => ((e.address : Int),
        if s.name = "" then ({ addend := s.value + f.readAddend e, type := e.type } : Relocation)
        else { symbol := some s.name, addend := f.readAddend e, type := e.type }) := by
  rw [relocationOf]
  -- Both sides make the same choices; they differ in where the relocation is built.
  refine ite_congr rfl (fun _ => rfl) fun _ => ite_congr rfl (fun _ => rfl) fun _ => ?_
  cases symbols[e.symbolIndex]? with
  | none => rfl
  | some s =>
    rw [Option.map_some]
    by_cases unnamed : s.name = ""
    · simp only [unnamed, if_true]
      rfl
    · simp only [unnamed, if_false]
      rfl

/-- An entry that fills in a pointer leaves the sum of its symbol's address and its addend. -/
theorem relocated?_of_relocationOf {symbols : List SymbolEntry} {e : RelocationEntry}
    {p : Int × Relocation} (fills : f.relocationOf symbols e = some p) :
    f.image.relocated? p.2 = (f.symbolValue? symbols e).map (· + f.readAddend e) := by
  -- The cases are those of the symbol: none, one without name whose value is part of the addend, or
  -- one that is looked up.
  rw [relocationOf_eq] at fills
  rw [symbolValue?]
  split at fills
  · cases fills
  · split at fills
    · next plain =>
      cases fills
      rw [if_pos plain, Option.map_some, Int.zero_add]
      rfl
    · next named =>
      obtain ⟨s, found, rfl⟩ := Option.map_eq_some_iff.mp fills
      rw [if_neg named, found, Option.bind_some]
      by_cases unnamed : s.name = ""
      · rw [if_pos unnamed, if_pos unnamed]
        rfl
      · rw [if_neg unnamed, if_neg unnamed]
        rfl

/-- An entry has an effect if it fills in a pointer. -/
theorem isSome_relocationOf (f : File) (symbols : List SymbolEntry) (e : RelocationEntry) :
    (f.relocationOf symbols e).isSome = f.fills symbols e := by
  rw [relocationOf_eq, fills]
  cases f.isRelative e with
  | true => simp
  | false =>
    cases f.isAbsolute e with
    | false => simp
    | true =>
      by_cases unnamed : e.symbolIndex = 0
      · simp [unnamed]
      · -- What is left of the condition is that the table has a symbol of this number.
        have listed : (symbols[e.symbolIndex]?).isSome = decide (e.symbolIndex < symbols.length) :=
          Bool.eq_iff_iff.mpr (by simp)
        simp [unnamed, listed]

/-- The pointer that resolving gives, in terms of the numbers that it adds. -/
theorem pointerOf?_eq (f : File) (symbols : List SymbolEntry) (e : RelocationEntry) :
    f.pointerOf? symbols e =
      if f.fills symbols e then some ((f.symbolValue? symbols e).map (· + f.readAddend e))
      else none := by
  rw [pointerOf?, ← isSome_relocationOf]
  cases fills : f.relocationOf symbols e with
  | none => rfl
  | some p => exact congrArg some (relocated?_of_relocationOf fills)

/-! ### Ranges -/

end File

/-- The value of a symbol is a number of a pointer's width. -/
theorem SymbolEntry.lt_span_of_ofNumbers? {fmt : Format} {names : List UInt8}
    {numbers : List Nat} {e : SymbolEntry} (within : Within fmt.symbolWidths numbers)
    (read : ofNumbers? fmt.width names numbers = some e) : e.value < fmt.width.span := by
  obtain ⟨width, bigEndian⟩ := fmt
  -- The value stands fifth in a wide entry and second in a narrow one.
  cases width with
  | wide =>
    obtain _ | ⟨-, _ | ⟨-, _ | ⟨-, _ | ⟨-, _ | ⟨small, _ | ⟨-, _ | _⟩⟩⟩⟩⟩⟩ := within
    cases read
    exact small
  | narrow =>
    obtain _ | ⟨-, _ | ⟨small, _ | ⟨-, _ | ⟨-, _ | ⟨-, _ | ⟨-, _ | _⟩⟩⟩⟩⟩⟩ := within
    cases read
    exact small

namespace File

variable {f : File}

/-- Values of symbols in a table fit in a pointer. -/
theorem lt_span_of_mem_symbolsOf {s : Section} {e : SymbolEntry} (mem : e ∈ f.symbolsOf s) :
    e.value < f.format.width.span := by
  obtain ⟨numbers, listed, read⟩ := List.mem_filterMap.mp mem
  exact SymbolEntry.lt_span_of_ofNumbers? (within_of_mem_tableAt listed) read

/-- So do those of the table that a section refers to. -/
theorem lt_span_of_mem_symbolEntries {index : Nat} {e : SymbolEntry}
    (mem : e ∈ f.symbolEntries index) : e.value < f.format.width.span := by
  rw [symbolEntries] at mem
  split at mem
  · cases mem
  · split at mem
    · exact lt_span_of_mem_symbolsOf mem
    · cases mem

/-- So do the addresses of symbols by name. -/
theorem symbolAddress?_lt {name : String} {address : Int}
    (found : f.image.symbolAddress? name = some address) : address < f.format.width.span := by
  obtain ⟨s, present, rfl⟩ := Option.map_eq_some_iff.mp found
  have mem : s ∈ f.symbols := List.mem_of_find?_eq_some present
  obtain ⟨e, listed, rfl⟩ := List.mem_map.mp mem
  obtain ⟨table, -, listed⟩ := List.mem_flatMap.mp listed
  exact Int.ofNat_lt.mpr (lt_span_of_mem_symbolsOf (List.mem_of_mem_filter listed))

/-- A pointer can hold the address of the symbol that an entry names. -/
theorem symbolValue?_bounds {index : Nat} {e : RelocationEntry} {value : Int}
    (found : f.symbolValue? (f.symbolEntries index) e = some value) :
    0 ≤ value ∧ value < f.format.width.span := by
  have positive := f.format.width.span_pos
  rw [symbolValue?] at found
  split at found
  · cases found
    omega
  · obtain ⟨s, listed, found⟩ := Option.bind_eq_some_iff.mp found
    split at found
    · cases found
      have small := lt_span_of_mem_symbolEntries (List.mem_of_getElem? listed)
      exact ⟨Int.natCast_nonneg _, Int.ofNat_lt.mpr small⟩
    · exact ⟨symbolAddress?_nonneg found, symbolAddress?_lt found⟩

/-- The addend as it is read is at most one span below the numbers that a pointer can hold. -/
theorem readAddend_bounds {s : Section} {e : RelocationEntry} (mem : e ∈ f.relocationEntries s) :
    -(f.format.width.span : Int) ≤ f.readAddend e ∧ f.readAddend e < f.format.width.span := by
  rw [readAddend]
  cases explicit : e.addend with
  | some addend =>
    obtain ⟨n, small, rfl⟩ := (of_mem_relocationEntries mem).2 addend explicit
    exact signedValue_bounds small
  | none =>
    have small := f.storedWord_lt e.address
    rw [Option.getD_none, implicitAddend_eq]
    split
    · exact signedValue_bounds small
    · omega

/-! ### Resolving against loading -/

/-- The sum with the addend as it is read keeps track of the loader's sum. -/
theorem tracks_of_symbolValue? {s : Section} {e : RelocationEntry} {value : Int}
    (mem : e ∈ f.relocationEntries s)
    (found : f.symbolValue? (f.symbolEntries s.link) e = some value) :
    f.format.width.Tracks (value + f.readAddend e)
      ((value + f.addendOf e) % f.format.width.span) := by
  have addend := readAddend_bounds mem
  have symbol := symbolValue?_bounds found
  -- a span more or less is cut off
  have same : (value + f.addendOf e) % f.format.width.span =
      (value + f.readAddend e) % f.format.width.span := by
    rcases f.readAddend_cases e with same | below
    · rw [same]
    · rw [below, ← Int.add_sub_assoc, Int.sub_emod_right]
  rw [same]
  exact PointerWidth.tracks_emod (by omega) (by omega)

/-- An entry that fills in a pointer leaves the loader's pointer, or one a span away from it. -/
theorem tracks_of_relocationOf {s : Section} {e : RelocationEntry} {p : Int × Relocation}
    (mem : e ∈ f.relocationEntries s)
    (fills : f.relocationOf (f.symbolEntries s.link) e = some p) :
    Option.Rel f.format.width.Tracks (f.image.relocated? p.2)
      (f.loaded? (f.symbolEntries s.link) e) := by
  rw [relocated?_of_relocationOf fills, loaded?]
  cases found : f.symbolValue? (f.symbolEntries s.link) e with
  | none => exact .none
  | some value => exact .some (tracks_of_symbolValue? mem found)

/-- The image of a file has its relocations, later ones in place of earlier ones. -/
theorem relocationAt?_image (f : File) (address : Int) :
    f.image.relocationAt? address = (Image.indexRelocations f.relocations)[address]? :=
  rfl

/-- The entry that is in effect at a relocated word. -/
theorem entry_of_mem_relocations {address : Int} (mem : address ∈ f.relocations.map (·.1)) :
    ∃ s ∈ f.sections, ∃ e ∈ f.relocationEntries s, ∃ r,
      f.relocationOf (f.symbolEntries s.link) e = some (address, r) ∧
        f.image.resolve address = .ok (f.image.relocated? r) := by
  obtain ⟨r, found⟩ := Image.exists_of_mem_indexRelocations mem
  have resolved : f.image.resolve address = .ok (f.image.relocated? r) := by
    rw [Image.resolve, relocationAt?_image, found]
  have listed : (address, r) ∈ f.relocations := Image.mem_of_indexRelocations found
  rw [relocations] at listed
  split at listed
  · cases listed
  · obtain ⟨s, here, listed⟩ := List.mem_flatMap.mp listed
    obtain ⟨e, entry, fills⟩ := List.mem_filterMap.mp listed
    exact ⟨s, here, e, entry, r, fills, resolved⟩

/-! ### Tables with and without addends -/

variable (f) in
/-- The pointer for an entry of a table without addends, whose addend is the stored word. -/
def pointerByWord? (symbols : List SymbolEntry) (e : RelocationEntry) : Option (Option Int) :=
  f.pointerOf? symbols { e with addend := none }

variable (f) in
/-- The pointer for the same entry of a table with addends that has `word` as its addend. -/
def pointerByAddend? (symbols : List SymbolEntry) (e : RelocationEntry) (word : Nat) :
    Option (Option Int) :=
  f.pointerOf? symbols { e with addend := some (signedValue f.format.width.bytes word) }

/-- Two files have the same architecture, and symbols at the same addresses. -/
structure Matches (f g : File) : Prop where
  width : g.format.width = f.format.width
  machine : g.header.machine = f.header.machine
  symbols : ∀ name, g.image.symbolAddress? name = f.image.symbolAddress? name

section Matches

variable {g : File} (same : f.Matches g)

include same

/-- Whether an entry stores its addend alone depends on the architecture. -/
theorem Matches.isRelative (e : RelocationEntry) : g.isRelative e = f.isRelative e := by
  rw [File.isRelative, File.isRelative, same.machine]

/-- So does whether it fills in a pointer. -/
theorem Matches.fills (symbols : List SymbolEntry) (e : RelocationEntry) :
    g.fills symbols e = f.fills symbols e := by
  simp only [File.fills, File.isRelative, isAbsolute, same.machine]

/-- Its symbol is at the same address. -/
theorem Matches.symbolValue? (symbols : List SymbolEntry) (e : RelocationEntry) :
    g.symbolValue? symbols e = f.symbolValue? symbols e := by
  simp only [File.symbolValue?, same.isRelative, same.symbols]

end Matches

/-- An entry that stores its addend alone leaves it as it is read. -/
theorem pointerOf?_of_isRelative {e : RelocationEntry} (relative : f.isRelative e = true)
    (symbols : List SymbolEntry) : f.pointerOf? symbols e = some (some (f.readAddend e)) := by
  have fills : f.fills symbols e = true := by simp [fills, relative]
  have alone : f.symbolValue? symbols e = some 0 := by simp [symbolValue?, relative]
  rw [pointerOf?_eq, fills, alone]
  simp

/-- No entry stores its addend alone and adds a symbol as well. -/
theorem isAbsolute_of_isRelative {e : RelocationEntry} (relative : f.isRelative e = true) :
    f.isAbsolute e = false := by
  -- no architecture lists a type as both
  rw [isRelative, PointerTypes.ofMachine] at relative
  rw [isAbsolute, PointerTypes.ofMachine]
  split_ifs at relative ⊢ <;> simp_all

/-- An entry that stores its addend alone leaves the stored word as it is, but an addend of its own
    as a signed number. -/
theorem pointers_of_isRelative {g : File} (same : f.Matches g) (symbols : List SymbolEntry)
    {e : RelocationEntry} (relative : f.isRelative e = true) (word : Nat) :
    f.pointerByWord? symbols e = some (some (f.storedWord e.address : Int)) ∧
      g.pointerByAddend? symbols e word =
        some (some (signedValue f.format.width.bytes word)) := by
  -- A stored word is read as unsigned here, an addend of the table always as signed.
  constructor
  · have read : f.readAddend { e with addend := none } = f.storedWord e.address := by
      show f.implicitAddend e.address (f.isAbsolute e) = _
      rw [implicitAddend_eq, isAbsolute_of_isRelative relative]
      rfl
    have pointer : f.pointerByWord? symbols e =
        some (some (f.readAddend { e with addend := none })) :=
      pointerOf?_of_isRelative (e := { e with addend := none }) relative symbols
    rw [pointer, read]
  · have also : g.isRelative e = true := (same.isRelative e).trans relative
    rw [← same.width]
    exact pointerOf?_of_isRelative (e := { e with addend := some (signedValue _ word) }) also
      symbols

/-- An entry gives the same pointer in both forms unless it stores its addend alone. -/
theorem pointers_of_not_isRelative {g : File} (same : f.Matches g) (symbols : List SymbolEntry)
    {e : RelocationEntry} (relative : f.isRelative e = false) :
    f.pointerByWord? symbols e = g.pointerByAddend? symbols e (f.storedWord e.address) := by
  rw [pointerByWord?, pointerByAddend?, pointerOf?_eq, pointerOf?_eq, same.fills, same.symbolValue?]
  -- only the addends as they are read tell the two forms apart
  refine ite_congr rfl (fun fills => congrArg (fun addend : Int =>
    some ((f.symbolValue? symbols e).map (· + addend))) ?_) fun _ => rfl
  have absolute : f.isAbsolute e = true := by
    have either : (f.isAbsolute e || f.isRelative e) = true := (Bool.and_eq_true_iff.mp fills).1
    rwa [relative, Bool.or_false] at either
  show f.implicitAddend e.address (f.isAbsolute e) = signedValue _ _
  rw [implicitAddend_eq, absolute, if_pos rfl, same.width]

/-- Both kinds of tables leave the same pointer unless the entry stores its addend alone and the
    word has its top bit set. -/
theorem pointers_eq_iff {g : File} (same : f.Matches g) (symbols : List SymbolEntry)
    (e : RelocationEntry) :
    f.pointerByWord? symbols e = g.pointerByAddend? symbols e (f.storedWord e.address) ↔
      (f.isRelative e = true → 2 * f.storedWord e.address < f.format.width.span) := by
  cases relative : f.isRelative e with
  | false => simpa using pointers_of_not_isRelative same symbols relative
  | true =>
    obtain ⟨byWord, byAddend⟩ := pointers_of_isRelative same symbols relative
      (f.storedWord e.address)
    have positive := f.format.width.span_pos
    rw [byWord, byAddend, Option.some_inj, Option.some_inj, imp_iff_right rfl]
    rcases signedValue_cases f.format.width.bytes (f.storedWord e.address) with
      ⟨signed, small⟩ | ⟨signed, large⟩
    · exact iff_of_true signed.symm small
    · rw [signed]
      exact iff_of_false (by rw [PointerWidth.span] at positive; omega) (Nat.not_lt.mpr large)

/-- **What resolving gives for a relocated word.**  It gives nothing exactly if the symbol of the
    entry in effect is not defined.  A result in a pointer's range is the loader's pointer; any
    other is negative and one span below the loader's pointer, or too large and one span above.  An
    entry leaves the same pointer whether its addend is its own or the stored word, unless it stores
    its addend alone and the word lies in the upper half of the range: then the addend of its own
    gives a negative number. -/
theorem resolve_loaded (f : File) :
    (∀ address ∈ f.relocations.map (·.1),
      ∃ s ∈ f.sections, ∃ e ∈ f.relocationEntries s, ∃ pointer : Option Int,
        (e.address : Int) = address ∧ f.pointerOf? (f.symbolEntries s.link) e = some pointer ∧
        f.image.resolve address = .ok pointer ∧
        Option.Rel f.format.width.Tracks pointer (f.loaded? (f.symbolEntries s.link) e)) ∧
    ∀ g, f.Matches g → ∀ (symbols : List SymbolEntry) (e : RelocationEntry),
      (f.pointerByWord? symbols e = g.pointerByAddend? symbols e (f.storedWord e.address) ↔
        (f.isRelative e = true → 2 * f.storedWord e.address < f.format.width.span)) ∧
      (f.isRelative e = true → ∀ word : Nat,
        f.pointerByWord? symbols e = some (some (f.storedWord e.address : Int)) ∧
        g.pointerByAddend? symbols e word =
          some (some (signedValue f.format.width.bytes word))) := by
  refine ⟨fun address mem => ?_, fun g same symbols e => ?_⟩
  · obtain ⟨s, here, e, entry, r, fills, resolved⟩ := entry_of_mem_relocations mem
    have pointer : f.pointerOf? (f.symbolEntries s.link) e = some (f.image.relocated? r) := by
      rw [pointerOf?, fills, Option.map_some]
    exact ⟨s, here, e, entry, _, (address_of_relocationOf fills).symm, pointer, resolved,
      tracks_of_relocationOf entry fills⟩
  · exact ⟨pointers_eq_iff same symbols e, pointers_of_isRelative same symbols⟩

end File

/-- A file with an array of one pointer at 0x1000, which a loader fills in with an address in the
    upper half of the address space. -/
def Draft.sampleHigh : Draft :=
  { Draft.sampleFar with
    nameSection := 3
    parts :=
      [.null,
        { Part.null with
          flags := 3, address := 0x1000, alignment := 8,
          body := .other 14 (List.replicate 8 0) 0 (by decide) },
        { Part.null with
          alignment := 8,
          body := .relocations
            [{ address := 0x1000, symbolIndex := 0, type := 8, addend := -0x1000 }] },
        { Part.null with alignment := 1, body := .strings [0] }] }

/-- Its numbers fit their fields. -/
theorem Draft.valid_sampleHigh : Draft.sampleHigh.Valid where
  header := by decide +kernel
  table := by decide +kernel
  symbols := by decide +kernel
  relocations := by decide +kernel
  nameSection := by decide
  names := by decide +kernel
  symbolNames := by decide +kernel

/-- The loader stores the address 0xfffffffffffff000, but resolving gives a negative number. -/
theorem File.resolve_loaded_sampleHigh :
    ∃ f, File.parse? Draft.sampleHigh.write = some f ∧ f.isRelocatable = false ∧
      (0x1000 : Int) ∈ f.relocations.map (·.1) ∧ f.image.resolve 0x1000 = .ok (some (-0x1000)) ∧
      ∃ s ∈ f.sections, ∃ e ∈ f.relocationEntries s, e.address = 0x1000 ∧
        f.loaded? (f.symbolEntries s.link) e = some 0xfffffffffffff000 := by
  have relocations : Draft.sampleHigh.file.relocations = Draft.sampleHigh.relocations :=
    Draft.relocations_file Draft.valid_sampleHigh (by decide)
  have listed : (0x1000 : Int) ∈ Draft.sampleHigh.file.relocations.map (·.1) := by
    rw [relocations]
    decide +kernel
  have resolved : Draft.sampleHigh.file.image.resolve 0x1000 = .ok (some (-0x1000)) := by
    have found : Draft.sampleHigh.file.image.relocationAt? 0x1000 =
        some { addend := -0x1000, type := 8 } := by
      rw [File.relocationAt?_image, relocations]
      decide +kernel
    rw [Image.resolve, found]
    rfl
  refine ⟨_, Draft.parse?_eq Draft.valid_sampleHigh, by decide +kernel, listed, resolved, ?_⟩
  obtain ⟨s, here, e, entry, pointer, address, -, same, tracks⟩ :=
    (File.resolve_loaded Draft.sampleHigh.file).1 0x1000 listed
  rw [resolved] at same
  cases same
  refine ⟨s, here, e, entry, by omega, ?_⟩
  have span : (Draft.sampleHigh.file.format.width.span : Int) = 0x10000000000000000 := by
    decide +kernel
  generalize Draft.sampleHigh.file.loaded? (Draft.sampleHigh.file.symbolEntries s.link) e = loaded
    at tracks
  cases tracks with
  | some near =>
    -- a negative number is one span below the loader's pointer
    have below := (near.resolve_left (by omega)).resolve_right (by omega)
    rw [Option.some_inj]
    omega

end Elf

end ItaniumRtti
