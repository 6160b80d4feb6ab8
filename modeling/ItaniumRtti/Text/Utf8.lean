namespace ItaniumRtti

/-!
# Text from bytes

Bytes of a program are untrusted, so decoding never fails: what cannot be decoded becomes the
replacement character.

* `Utf8.Pending` — a multi-byte character under way;
* `Utf8.step` — what one more byte adds;
* `decodeUtf8` — UTF-8, one replacement character for each longest invalid prefix;
* `decodeAscii` — seven-bit text, one replacement character for each higher byte.
-/

/-- Stands for bytes that cannot be decoded. -/
def replacement : Char := '�'

namespace Utf8

/-- A character under way. -/
structure Pending where
  /-- Continuation bytes still owed. -/
  owed : Nat
  /-- Least value that the next byte may have. -/
  low : Nat
  /-- Greatest value that the next byte may have. -/
  high : Nat
  /-- The bits gathered so far. -/
  bits : Nat
  deriving DecidableEq, Repr

/-- A byte between characters: what it adds to the text, and the character it begins.  The second
    byte's bounds keep overlong forms, surrogates and code points above `0x10FFFF` out. -/
def lead (b : Nat) : List Char × Option Pending :=
  if b < 0x80 then ([Char.ofNat b], none)
  else if 0xC2 ≤ b ∧ b ≤ 0xDF then ([], some ⟨1, 0x80, 0xBF, b - 0xC0⟩)
  else if b = 0xE0 then ([], some ⟨2, 0xA0, 0xBF, 0⟩)
  else if b = 0xED then ([], some ⟨2, 0x80, 0x9F, 0xD⟩)
  else if 0xE1 ≤ b ∧ b ≤ 0xEF then ([], some ⟨2, 0x80, 0xBF, b - 0xE0⟩)
  else if b = 0xF0 then ([], some ⟨3, 0x90, 0xBF, 0⟩)
  else if 0xF1 ≤ b ∧ b ≤ 0xF3 then ([], some ⟨3, 0x80, 0xBF, b - 0xF0⟩)
  else if b = 0xF4 then ([], some ⟨3, 0x80, 0x8F, 4⟩)
  else ([replacement], none)

/-- What byte `b` adds to the text, and the character then under way.  A byte that does not fit
    ends the character under way as invalid and is read again on its own. -/
def step (pending : Option Pending) (b : Nat) : List Char × Option Pending :=
  match pending with
  | none => lead b
  | some p =>
    if p.low ≤ b ∧ b ≤ p.high then
      let bits := p.bits * 64 + b % 64
      if p.owed ≤ 1 then ([Char.ofNat bits], none)
      else ([], some ⟨p.owed - 1, 0x80, 0xBF, bits⟩)
    else
      let (text, next) := lead b
      (replacement :: text, next)

/-- The text of the remaining bytes. -/
def decodeFrom : Option Pending → List UInt8 → List Char
  | none, [] => []
  | some _, [] => [replacement]
  | pending, b :: bytes =>
    let (text, next) := step pending b.toNat
    text ++ decodeFrom next bytes

end Utf8

/-- The text that `bytes` encode in UTF-8. -/
def decodeUtf8 (bytes : List UInt8) : String :=
  String.ofList (Utf8.decodeFrom none bytes)

/-- The bytes of `text` in UTF-8. -/
def encodeUtf8 (text : String) : List UInt8 :=
  text.toUTF8.data.toList

/-- The text that `bytes` encode in seven-bit characters. -/
def decodeAscii (bytes : List UInt8) : String :=
  String.ofList (bytes.map fun b => if b.toNat < 0x80 then Char.ofNat b.toNat else replacement)

end ItaniumRtti
