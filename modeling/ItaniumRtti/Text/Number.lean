namespace ItaniumRtti

/-!
# The text of numbers

Addresses are computed from untrusted fields, so sums may leave the machine's range on either
side: throughout the library an address is an unbounded `Int`.

* `hexDigits` — the hexadecimal digits of a natural number;
* `signedHex` — the form used in messages, where the sign precedes `0x`;
* `reportHex` — the form used in reports, where `0x` precedes the sign;
* `decimal` — an integer in base ten.
-/

/-- The lower-case hexadecimal digits of `n`, without leading zeros. -/
def hexDigits (n : Nat) : String :=
  String.ofList (Nat.toDigits 16 n)

/-- `255` is `0xff` and `-16` is `-0x10`. -/
def signedHex (n : Int) : String :=
  if n < 0 then "-0x" ++ hexDigits n.natAbs else "0x" ++ hexDigits n.natAbs

/-- `255` is `0xff` and `-16` is `0x-10`. -/
def reportHex (n : Int) : String :=
  if n < 0 then "0x-" ++ hexDigits n.natAbs else "0x" ++ hexDigits n.natAbs

/-- The decimal digits of `n`, after a minus sign when it is negative. -/
def decimal (n : Int) : String :=
  let digits := String.ofList (Nat.toDigits 10 n.natAbs)
  if n < 0 then "-" ++ digits else digits

end ItaniumRtti
