import ItaniumRtti.Bytes.Order
import ItaniumRtti.Bytes.Slice
import ItaniumRtti.Image.Basic

namespace ItaniumRtti.Elf

/-!
# Records of an ELF file

The tables of an ELF file are made of records, and a record of unsigned numbers that follow each
other without gaps.

* `Format` — pointer size and byte order, which all records depend on;
* `unpack` — the numbers of a record;
* `record?` — the record at an offset of a file, if it lies in the file;
* `recordsAt` — the records of a table, up to the first one that passes the file's end.
-/

/-- Pointer size and byte order of a file. -/
structure Format where
  /-- Size of a pointer. -/
  width : PointerWidth
  /-- Whether the most significant byte of a number comes first. -/
  bigEndian : Bool
  deriving DecidableEq, Repr

/-- The byte order of a file. -/
def Format.order (fmt : Format) : ByteOrder :=
  if fmt.bigEndian then .big else .little

/-- The unsigned number that `bytes` stand for. -/
def Format.number (fmt : Format) (bytes : List UInt8) : Nat :=
  littleValue (if fmt.bigEndian then bytes.reverse else bytes)

/-- The numbers of the given widths that `bytes` hold one after the other. -/
def unpack (fmt : Format) : List Nat → List UInt8 → List Nat
  | [], _ => []
  | width :: widths, bytes =>
    fmt.number (bytes.take width) :: unpack fmt widths (bytes.drop width)

/-- The numbers of the record at `offset`, if it lies in the file. -/
def record? (fmt : Format) (data : ByteArray) (widths : List Nat) (offset : Nat) :
    Option (List Nat) :=
  let length := widths.foldr (· + ·) 0
  if offset + length ≤ data.size then some (unpack fmt widths (bytesAt data offset length))
  else none

/-- The records that start at the given offsets, up to the first that passes the file's end. -/
def recordsFrom (fmt : Format) (data : ByteArray) (widths : List Nat) :
    List Nat → List (List Nat)
  | [] => []
  | offset :: rest =>
    match record? fmt data widths offset with
    | none => []
    | some numbers => numbers :: recordsFrom fmt data widths rest

/-- The `count` records that start at `offset` and follow each other at distance `stride`, up to
    the first that passes the file's end. -/
def recordsAt (fmt : Format) (data : ByteArray) (widths : List Nat) (offset stride count : Nat) :
    List (List Nat) :=
  recordsFrom fmt data widths ((List.range count).map fun i => offset + i * stride)

/-- The records of a table of `size` bytes.  A table whose records have no size is empty, and no
    more records are looked for than the file has bytes. -/
def tableAt (fmt : Format) (data : ByteArray) (widths : List Nat) (offset stride size : Nat) :
    List (List Nat) :=
  recordsAt fmt data widths offset stride (min (size / stride) data.size)

end ItaniumRtti.Elf
