import ItaniumRtti.Image.Read
import ItaniumRtti.Text.Utf8

namespace ItaniumRtti

/-!
# String marks

Reading a name marks the string that holds it, so that no two strings overlap.

* `Mark` — a marked string;
* `Marks` — marks in address order;
* `Marks.at?` — the mark that starts at an address;
* `Marks.place?` — a mark in its place, unless it overlaps another;
* `Image.stringAt?` — the string that starts at an address;
* `Image.markString` — the mark of the string at an address, made if it is new.
-/

/-- A string recognised in the image. -/
structure Mark where
  /-- Address of the first byte. -/
  address : Int
  /-- Number of bytes, the closing NUL included. -/
  length : Nat
  /-- The string as text. -/
  text : String
  deriving DecidableEq, Repr

/-- The address after the closing NUL. -/
def Mark.stop (m : Mark) : Int :=
  m.address + m.length

/-- Marks in address order. -/
abbrev Marks := List Mark

namespace Marks

/-- The mark that starts at `address`. -/
def at? (marks : Marks) (address : Int) : Option Mark :=
  marks.find? (·.address == address)

/-- The marks with `m` in its place, or nothing if `m` overlaps a mark. -/
def place? (m : Mark) : Marks → Option Marks
  | [] => some [m]
  | x :: rest =>
    if x.stop ≤ m.address then (place? m rest).map (x :: ·)
    else if m.stop ≤ x.address then some (m :: x :: rest)
    else none

/-- The mark for the string `m` and the marks then made: the old mark if the same string is
    marked already, the new one if it overlaps none. -/
def add (marks : Marks) (m : Mark) : Option Mark × Marks :=
  match marks.at? m.address with
  | some old => (if old.length = m.length then some old else none, marks)
  | none =>
    match place? m marks with
    | some more => (some m, more)
    | none => (none, marks)

end Marks

namespace Image

/-- Longest run of bytes that is searched for a closing NUL. -/
def maxStringLength : Nat := 4096

/-- The string that starts at `address`: the bytes up to a NUL that closes it within the block's
    contents and the length limit. -/
def stringAt? (img : Image) (address : Int) : Option Mark :=
  match img.blockAt? address with
  | none => none
  | some b =>
    if !b.initialized then none
    else
      let offset := (address - b.start).toNat
      (indexOf? b.data [0] offset (min b.data.size (offset + maxStringLength))).map fun close =>
        { address, length := close - offset + 1,
          text := decodeUtf8 (bytesAt b.data offset (close - offset)) }

/-- The mark of the string at `address`, and the marks then made. -/
def markString (img : Image) (marks : Marks) (address : Int) : Option Mark × Marks :=
  match img.stringAt? address with
  | none => (none, marks)
  | some m => marks.add m

end Image

end ItaniumRtti
