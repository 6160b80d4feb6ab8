namespace ItaniumRtti

/-!
# Whole numbers in texts

A whole number may be written with the decimal digits of any script of the Unicode standard,
version 14.

* `digitZeros`, `digitValue?` — the decimal digits;
* `isSpace` — the white space that may surround a number;
* `mostDigits` — how many digits a number may have;
* `wholeNumber?` — the number that a text stands for.
-/

/-- The zeros of all scripts, as code points in ascending order.  The other nine digits of a script
    follow its zero. -/
def digitZeros : List Nat :=
  [0x30, 0x660, 0x6f0, 0x7c0, 0x966, 0x9e6, 0xa66, 0xae6, 0xb66, 0xbe6, 0xc66, 0xce6, 0xd66,
   0xde6, 0xe50, 0xed0, 0xf20, 0x1040, 0x1090, 0x17e0, 0x1810, 0x1946, 0x19d0, 0x1a80, 0x1a90,
   0x1b50, 0x1bb0, 0x1c40, 0x1c50, 0xa620, 0xa8d0, 0xa900, 0xa9d0, 0xa9f0, 0xaa50, 0xabf0,
   0xff10, 0x104a0, 0x10d30, 0x11066, 0x110f0, 0x11136, 0x111d0, 0x112f0, 0x11450, 0x114d0,
   0x11650, 0x116c0, 0x11730, 0x118e0, 0x11950, 0x11c50, 0x11d50, 0x11da0, 0x16a60, 0x16ac0,
   0x16b50, 0x1d7ce, 0x1d7d8, 0x1d7e2, 0x1d7ec, 0x1d7f6, 0x1e140, 0x1e2f0, 0x1e950, 0x1fbf0]

/-- The value of a decimal digit. -/
def digitValue? (c : Char) : Option Nat :=
  (digitZeros.find? fun first => first ≤ c.toNat && c.toNat < first + 10).map (c.toNat - ·)

/-- Whether a character is white space around a number.  The separators of information are not. -/
def isSpace (c : Char) : Bool :=
  c = ' ' || (9 ≤ c.toNat && c.toNat ≤ 13) || c.toNat = 0x85 || c.toNat = 0xa0 ||
    c.toNat = 0x1680 || (0x2000 ≤ c.toNat && c.toNat ≤ 0x200a) || c.toNat = 0x2028 ||
    c.toNat = 0x2029 || c.toNat = 0x202f || c.toNat = 0x205f || c.toNat = 0x3000

/-- Most decimal digits of a number that is read. -/
def mostDigits : Nat := 4300

/-- The values of digits.  One underscore may stand between two digits; `afterDigit` says whether a
    digit came before. -/
def digitsOf? : Bool → List Char → Option (List Nat)
  | afterDigit, [] => if afterDigit then some [] else none
  | afterDigit, c :: rest =>
    match digitValue? c with
    | some digit => (digitsOf? true rest).map (digit :: ·)
    | none => if c = '_' && afterDigit then digitsOf? false rest else none

/-- The number without sign that digits stand for. -/
def naturalNumber? (digits : List Char) : Option Nat :=
  match digitsOf? false digits with
  | none => none
  | some values =>
    if mostDigits < values.length then none
    else some (values.foldl (fun n digit => 10 * n + digit) 0)

/-- The whole number that a text stands for. -/
def wholeNumber? (text : String) : Option Int :=
  match ((text.toList.dropWhile isSpace).reverse.dropWhile isSpace).reverse with
  | '-' :: digits => (naturalNumber? digits).map fun n => -(n : Int)
  | '+' :: digits => (naturalNumber? digits).map fun n => (n : Int)
  | digits => (naturalNumber? digits).map fun n => (n : Int)

end ItaniumRtti
