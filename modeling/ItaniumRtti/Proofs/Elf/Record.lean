import Mathlib.Data.List.Forall2
import ItaniumRtti.Elf.Section

namespace ItaniumRtti.Elf

/-!
# Writing records

The other direction of `Elf.Record`: how numbers, records and names are written, and that reading
gives back what was written, wherever in a file it stands.

* `Format.encode` — the bytes of a number;
* `pack` — the bytes of a record, `Within` — its numbers can be written in their widths;
* `Stands` — a file holds given bytes at an offset;
* `Name` — a seven-bit name without NUL, `Name.In` — it stands in a string table;
* `recordsAt_of_stands` / `tableAt_of_stands` — a table of records reads back;
* `within_of_mem_tableAt` — what is read from a table could have been written;
* `stringAt_of_in` — a name reads back.
-/

/-! ### Bytes of a file -/

/-- The file holds `bytes` at `offset`.  No bytes at all may stand anywhere, also past its end. -/
def Stands (data : ByteArray) (offset : Nat) (bytes : List UInt8) : Prop :=
  bytesAt data offset bytes.length = bytes

namespace Stands

variable {data : ByteArray} {offset : Nat} {bytes more : List UInt8}

theorem whole (bytes : List UInt8) : Stands ⟨bytes.toArray⟩ 0 bytes := by
  rw [Stands, bytesAt_eq, List.drop_zero, List.take_length]

theorem nil (data : ByteArray) (offset : Nat) : Stands data offset [] := by
  rw [Stands, bytesAt_eq, List.length_nil, List.take_zero]

theorem left (h : Stands data offset (bytes ++ more)) : Stands data offset bytes := by
  have first := congrArg (List.take bytes.length) h
  rwa [bytesAt_eq, List.take_take, List.length_append, Nat.min_eq_left (Nat.le_add_right _ _),
    List.take_left, ← bytesAt_eq] at first

/-- The second of two parts stands after the first. -/
theorem right (h : Stands data offset (bytes ++ more)) :
    Stands data (offset + bytes.length) more := by
  have second := congrArg (List.drop bytes.length) h
  rwa [bytesAt_eq, List.drop_take, List.length_append, Nat.add_sub_cancel_left, List.drop_drop,
    List.drop_left, ← bytesAt_eq] at second

/-- Bytes that stand in a file end in it. -/
theorem le_size (h : Stands data offset bytes) (nonempty : bytes ≠ []) :
    offset + bytes.length ≤ data.size := by
  have length := congrArg List.length h
  have positive : 0 < bytes.length := List.length_pos_iff.mpr nonempty
  rw [length_bytesAt] at length
  omega

/-- They can be cut out of it. -/
theorem clip (h : Stands data offset bytes) : clip data offset bytes.length = ⟨bytes.toArray⟩ := by
  apply ByteArray.ext
  apply Array.toList_inj.1
  exact h

end Stands

/-! ### Numbers and records -/

/-- The bytes of `n` as a number of the given width. -/
def Format.encode (fmt : Format) (width n : Nat) : List UInt8 :=
  if fmt.bigEndian then (littleBytes width n).reverse else littleBytes width n

/-- The bytes of a record with the given numbers. -/
def pack (fmt : Format) : List Nat → List Nat → List UInt8
  | width :: widths, n :: numbers => fmt.encode width n ++ pack fmt widths numbers
  | _, _ => []

/-- Every number of a record can be written in its width. -/
def Within (widths numbers : List Nat) : Prop :=
  List.Forall₂ (fun width n => n < Nat.pow 256 width) widths numbers

instance (widths numbers : List Nat) : Decidable (Within widths numbers) :=
  inferInstanceAs (Decidable (List.Forall₂ _ _ _))

/-- If all widths are the same, so is the bound on all numbers. -/
theorem Within.lt_of_replicate {count width : Nat} {numbers : List Nat}
    (within : Within (List.replicate count width) numbers) :
    ∀ n ∈ numbers, n < Nat.pow 256 width := by
  induction count generalizing numbers with
  | zero =>
    cases within
    exact fun _ mem => by cases mem
  | succ count ih =>
    cases within with
    | cons small rest => exact List.forall_mem_cons.mpr ⟨small, ih rest⟩

/-- The number of bytes of a record. -/
def recordSize (widths : List Nat) : Nat :=
  widths.foldr (· + ·) 0

variable {fmt : Format} {data : ByteArray} {widths numbers : List Nat} {offset : Nat}

/-- A number takes as many bytes as its width says. -/
@[simp] theorem Format.length_encode (fmt : Format) (width n : Nat) :
    (fmt.encode width n).length = width := by
  rw [Format.encode]
  split
  · rw [List.length_reverse, length_littleBytes]
  · exact length_littleBytes width n

/-- What is read from some bytes is a number of as many bytes. -/
theorem Format.number_lt (fmt : Format) (bytes : List UInt8) :
    fmt.number bytes < Nat.pow 256 bytes.length := by
  rw [Format.number]
  split
  · rw [← List.length_reverse]
    exact littleValue_lt _
  · exact littleValue_lt _

/-- A number that fits its width reads back. -/
theorem Format.number_encode (fmt : Format) {width n : Nat} (fits : n < Nat.pow 256 width) :
    fmt.number (fmt.encode width n) = n := by
  have value : littleValue (littleBytes width n) = n := by
    rw [littleValue_littleBytes, Nat.mod_eq_of_lt fits]
  rw [Format.number, Format.encode]
  split
  · rw [List.reverse_reverse, value]
  · exact value

/-- A record takes as many bytes as its widths add up to. -/
theorem length_pack (within : Within widths numbers) :
    (pack fmt widths numbers).length = recordSize widths := by
  induction within with
  | nil => rfl
  | cons _ _ ih =>
    rw [pack, List.length_append, Format.length_encode, ih]
    rfl

/-- A record reads back. -/
theorem unpack_pack (within : Within widths numbers) :
    unpack fmt widths (pack fmt widths numbers) = numbers := by
  induction within with
  | nil => rfl
  | @cons width n widths numbers fits _ ih =>
    have head : (fmt.encode width n).length = width := fmt.length_encode width n
    rw [pack, unpack, List.take_left' head, List.drop_left' head, fmt.number_encode fits, ih]

/-- Numbers that were read from bytes can be written in their widths. -/
theorem within_unpack (fmt : Format) (widths : List Nat) (bytes : List UInt8) :
    Within widths (unpack fmt widths bytes) := by
  induction widths generalizing bytes with
  | nil => exact .nil
  | cons width widths ih =>
    refine .cons ?_ (ih _)
    exact Nat.lt_of_lt_of_le (fmt.number_lt (bytes.take width))
      (Nat.pow_le_pow_right (by decide) (List.length_take_le width bytes))

/-- A record reads back where it stands. -/
theorem record?_of_stands (positive : 0 < recordSize widths) (within : Within widths numbers)
    (stands : Stands data offset (pack fmt widths numbers)) :
    record? fmt data widths offset = some numbers := by
  have length : (pack fmt widths numbers).length = recordSize widths := length_pack within
  have nonempty : pack fmt widths numbers ≠ [] := List.ne_nil_of_length_pos (length ▸ positive)
  have inside := stands.le_size nonempty
  rw [Stands, length] at stands
  rw [length] at inside
  refine (if_pos inside).trans ?_
  exact congrArg some ((congrArg (unpack fmt widths) stands).trans (unpack_pack within))

/-! ### Tables -/

/-- A table takes its number of records times the size of a record. -/
theorem length_flatMap_pack {records : List (List Nat)}
    (within : ∀ numbers ∈ records, Within widths numbers) :
    (records.flatMap (pack fmt widths)).length = records.length * recordSize widths := by
  induction records with
  | nil => exact (Nat.zero_mul _).symm
  | cons numbers records ih =>
    have rest := ih fun r mem => within r (List.mem_cons_of_mem _ mem)
    rw [List.flatMap_cons, List.length_append, length_pack (within _ List.mem_cons_self), rest,
      List.length_cons, Nat.succ_mul, Nat.add_comm]

/-- Records that follow each other without gaps read back. -/
theorem recordsAt_of_stands {records : List (List Nat)} (positive : 0 < recordSize widths)
    (within : ∀ numbers ∈ records, Within widths numbers)
    (stands : Stands data offset (records.flatMap (pack fmt widths))) :
    recordsAt fmt data widths offset (recordSize widths) records.length = records := by
  induction records generalizing offset with
  | nil => rfl
  | cons numbers records ih =>
    rw [List.flatMap_cons] at stands
    have first : record? fmt data widths offset = some numbers :=
      record?_of_stands positive (within _ List.mem_cons_self) stands.left
    have later := stands.right
    rw [length_pack (within _ List.mem_cons_self)] at later
    have rest := ih (fun r mem => within r (List.mem_cons_of_mem _ mem)) later
    -- the offsets of the later records are those of a table that starts one record later
    have offsets : (List.range records.length).map (fun i => offset + (i + 1) * recordSize widths) =
        (List.range records.length).map fun i =>
          offset + recordSize widths + i * recordSize widths :=
      List.map_congr_left fun i _ => by rw [Nat.succ_mul]; omega
    rw [recordsAt, List.length_cons, List.range_succ_eq_map, List.map_cons, List.map_map,
      recordsFrom, Nat.zero_mul, Nat.add_zero, first]
    simp only [Function.comp_def, Nat.succ_eq_add_one]
    rw [offsets]
    exact congrArg (numbers :: ·) rest

/-- A table whose entries have the size of a record reads back. -/
theorem tableAt_of_stands {records : List (List Nat)} (positive : 0 < recordSize widths)
    (within : ∀ numbers ∈ records, Within widths numbers)
    (stands : Stands data offset (records.flatMap (pack fmt widths))) :
    tableAt fmt data widths offset (recordSize widths)
      (records.flatMap (pack fmt widths)).length = records := by
  have length : (records.flatMap (pack fmt widths)).length = records.length * recordSize widths :=
    length_flatMap_pack within
  have many : records.length ≤ records.length * recordSize widths :=
    Nat.le_mul_of_pos_right _ positive
  -- The reader takes no more entries than the file has bytes. That is enough, since each takes at
  -- least one.
  have few : records.length ≤ data.size := by
    by_cases empty : records.flatMap (pack fmt widths) = []
    · rw [empty, List.length_nil] at length
      omega
    · have inside := stands.le_size empty
      omega
  rw [tableAt, length, Nat.mul_div_cancel _ positive, Nat.min_eq_left few]
  exact recordsAt_of_stands positive within stands

/-- Records that are read have numbers of their widths. -/
theorem within_of_mem_recordsFrom {offsets : List Nat}
    (mem : numbers ∈ recordsFrom fmt data widths offsets) : Within widths numbers := by
  induction offsets with
  | nil => cases mem
  | cons offset rest ih =>
    rw [recordsFrom] at mem
    cases read : record? fmt data widths offset with
    | none =>
      rw [read] at mem
      cases mem
    | some first =>
      rw [read] at mem
      rcases List.mem_cons.1 mem with rfl | later
      · rw [record?] at read
        obtain ⟨-, same⟩ := Option.ite_none_right_eq_some.1 read
        exact Option.some.inj same ▸ within_unpack fmt widths _
      · exact ih later

/-- The numbers of a table can be written in their widths. -/
theorem within_of_mem_tableAt {stride size : Nat}
    (mem : numbers ∈ tableAt fmt data widths offset stride size) : Within widths numbers :=
  within_of_mem_recordsFrom mem

/-! ### Names -/

/-- A name in seven-bit characters other than NUL. -/
structure Name where
  /-- The name itself. -/
  text : String
  /-- Every character can be written, and none ends the name. -/
  ascii : (text.toList.all fun c => c.toNat ≠ 0 && c.toNat < 0x80) = true

namespace Name

/-- The empty name. -/
def empty : Name :=
  ⟨"", rfl⟩

variable (name : Name)

/-- The bytes of a name. -/
def bytes : List UInt8 :=
  name.text.toList.map fun c => UInt8.ofNat c.toNat

/-- The name stands in a string table at `offset`, with a NUL after it. -/
def In (table : List UInt8) (offset : Nat) : Prop :=
  name.bytes ++ [0] <+: table.drop offset

instance (table : List UInt8) (offset : Nat) : Decidable (name.In table offset) :=
  inferInstanceAs (Decidable (_ <+: _))

/-- A character of a name is neither NUL nor too large. -/
theorem of_mem {c : Char} (mem : c ∈ name.text.toList) : c.toNat ≠ 0 ∧ c.toNat < 0x80 := by
  simpa using List.all_eq_true.1 name.ascii c mem

/-- So it is the same as a byte. -/
theorem toNat_ofNat {c : Char} (mem : c ∈ name.text.toList) :
    (UInt8.ofNat c.toNat).toNat = c.toNat := by
  have small := (name.of_mem mem).2
  exact UInt8.toNat_ofNat_of_lt' (by show c.toNat < 256; omega)

/-- No byte of a name ends it. -/
theorem ne_zero_of_mem_bytes {b : UInt8} (mem : b ∈ name.bytes) : b ≠ 0 := by
  obtain ⟨c, member, rfl⟩ := List.mem_map.1 mem
  intro zero
  have value := name.toNat_ofNat member
  rw [zero] at value
  exact (name.of_mem member).1 value.symm

/-- The bytes of a name are decoded to the name. -/
theorem decodeAscii_bytes : decodeAscii name.bytes = name.text := by
  have back : name.bytes.map
      (fun b => if b.toNat < 0x80 then Char.ofNat b.toNat else replacement) =
        name.text.toList := by
    rw [bytes, List.map_map]
    refine (List.map_congr_left fun c mem => ?_).trans (List.map_id _)
    rw [Function.comp_apply, name.toNat_ofNat mem, if_pos (name.of_mem mem).2, Char.ofNat_toNat]
    rfl
  rw [decodeAscii, back, String.ofList_toList]

/-- A name reads back from a table that it stands in. -/
theorem stringAt_of_in {table : List UInt8} {offset : Nat} (h : name.In table offset) :
    stringAt table offset = name.text := by
  obtain ⟨after, split⟩ := h
  have upToNul : (name.bytes ++ 0 :: after).takeWhile (fun b => decide (b ≠ 0)) = name.bytes := by
    rw [List.takeWhile_append_of_pos fun b mem => decide_eq_true (name.ne_zero_of_mem_bytes mem)]
    simp
  rw [stringAt, ← split, List.append_assoc, List.singleton_append, upToNul, name.decodeAscii_bytes]

end Name

end ItaniumRtti.Elf
