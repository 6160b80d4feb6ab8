import ItaniumRtti.Text.Number

namespace ItaniumRtti

/-!
# The text of floating-point numbers

* `Real64` — a floating-point number as sign, mantissa and power of two;
* `Real64.floor?`, `Real64.ceiling?` — the whole numbers around it;
* `roundQuotient` — the integer nearest to a quotient, a tie going to the even one;
* `Real64.fixed` — the form with a set number of places;
* `leadingDigits` — a set number of digits from the first one on;
* `shortest` — the fewest digits that read back as the same number;
* `NumberLayout`, `Real64.natural` — how these digits are laid out;
* `roundFloat` — the number rounded to a number of places.
-/

/-- A floating-point number. -/
inductive Real64 where
  /-- No number. -/
  | nan
  /-- Infinity, of either sign. -/
  | infinite (negative : Bool)
  /-- `mantissa * 2 ^ exponent`, negated if `negative`. -/
  | finite (negative : Bool) (mantissa : Nat) (exponent : Int)
  deriving DecidableEq, Repr

/-- Exponent of the smallest positive number. -/
def leastExponent : Int := -1074

/-- The first of the mantissas of normal numbers. -/
def hiddenBit : Nat := Nat.pow 2 52

/-- The number that a bit pattern stands for. -/
def Real64.ofBits (bits : Nat) : Real64 :=
  let negative := bits / Nat.pow 2 63 % 2 = 1
  let exponent : Nat := bits / Nat.pow 2 52 % Nat.pow 2 11
  let fraction := bits % Nat.pow 2 52
  if exponent = 2047 then if fraction = 0 then .infinite negative else .nan
  else if exponent = 0 then .finite negative fraction leastExponent
  else .finite negative (hiddenBit + fraction) (leastExponent - 1 + (exponent : Int))

/-- The parts of a floating-point number. -/
def Real64.ofFloat (x : Float) : Real64 :=
  .ofBits x.toBits.toNat

/-- The integer nearest to `num / den`, the even one of two that are equally near. -/
def roundQuotient (num den : Nat) : Nat :=
  let quotient := num / den
  let twice := 2 * (num % den)
  if twice < den then quotient
  else if den < twice then quotient + 1
  else quotient + quotient % 2

/-- `mantissa * 2 ^ exponent` as a fraction. -/
def binaryFraction (mantissa : Nat) (exponent : Int) : Nat × Nat :=
  if 0 ≤ exponent then (mantissa * Nat.pow 2 exponent.toNat, 1)
  else (mantissa, Nat.pow 2 (-exponent).toNat)

/-- The greatest whole number that is not above a finite number. -/
def Real64.floor? : Real64 → Option Int
  | .finite negative mantissa exponent =>
    let (num, den) := binaryFraction mantissa exponent
    some ((if negative then -(num : Int) else num) / den)
  | _ => none

/-- The least whole number that is not below a finite number. -/
def Real64.ceiling? : Real64 → Option Int
  | .finite negative mantissa exponent =>
    let (num, den) := binaryFraction mantissa exponent
    some (-((if negative then (num : Int) else -num) / den))
  | _ => none

/-- The text of a sign. -/
def signText (negative : Bool) : String :=
  if negative then "-" else ""

/-! ### A set number of places -/

/-- `mantissa * 2 ^ exponent` in units of the last of `places` places, rounded. -/
def inPlaces (mantissa : Nat) (exponent : Int) (places : Nat) : Nat :=
  let (num, den) := binaryFraction mantissa exponent
  roundQuotient (num * Nat.pow 10 places) den

/-- The decimal digits of `n`, at least `count` of them. -/
def paddedDigits (count n : Nat) : String :=
  let digits := Nat.toDigits 10 n
  String.ofList (List.replicate (count - digits.length) '0' ++ digits)

/-- `n` units of the last of `places` places. -/
def pointed (places n : Nat) : String :=
  if places = 0 then decimal n
  else
    decimal (n / Nat.pow 10 places : Nat) ++ "." ++ paddedDigits places (n % Nat.pow 10 places)

/-- The number with a set number of places, rounded to nearest with ties to even. -/
def Real64.fixed (places : Nat) : Real64 → String
  | .nan => "nan"
  | .infinite negative => signText negative ++ "inf"
  | .finite negative mantissa exponent =>
    signText negative ++ pointed places (inPlaces mantissa exponent places)

/-- The number rounded to a set number of places, with ties to even. -/
def roundFloat (places : Nat) (x : Float) : Float :=
  match Real64.ofFloat x with
  | .finite negative mantissa exponent =>
    let rounded := Float.ofScientific (inPlaces mantissa exponent places) true places
    if negative then -rounded else rounded
  | _ => x

/-! ### A set number of digits -/

/-- The power of ten of the first digit of the positive fraction `num / den`. -/
def leadingPower (num den : Nat) : Int :=
  if den ≤ num then (Nat.toDigits 10 (num / den)).length - 1
  else
    let count := (Nat.toDigits 10 (den / num)).length
    if den ≤ num * Nat.pow 10 (count - 1) then 1 - (count : Int) else -(count : Int)

/-- The first `count` digits of `mantissa * 2 ^ exponent`, rounded to nearest with ties to even,
    and the power of ten of the first one. -/
def leadingDigits (count mantissa : Nat) (exponent : Int) : Nat × Int :=
  if mantissa = 0 then (0, 0)
  else
    let (num, den) := binaryFraction mantissa exponent
    let power := leadingPower num den
    let shift := (count : Int) - 1 - power
    let digits := roundQuotient (num * Nat.pow 10 shift.toNat) (den * Nat.pow 10 (-shift).toNat)
    if digits = Nat.pow 10 count then (digits / 10, power + 1) else (digits, power)

/-! ### The fewest digits -/

/-- A positive decimal number, `digits * 10 ^ exponent`. -/
structure DecimalDigits where
  /-- The digits as a number. -/
  digits : Nat
  /-- Power of ten. -/
  exponent : Int
  deriving DecidableEq, Repr

/-- The numbers `low / den ≤ value / den ≤ high / den`: those between the outer ones read back as
    the middle one. -/
structure RoundingInterval where
  /-- Greatest number that reads back as something smaller, or its limit. -/
  low : Nat
  /-- The number itself. -/
  value : Nat
  /-- Least number that reads back as something greater, or its limit. -/
  high : Nat
  /-- Common denominator. -/
  den : Nat
  /-- Whether the outer numbers read back as the middle one too. -/
  closed : Bool

namespace RoundingInterval

/-- The interval around `mantissa * 2 ^ exponent`.  Below a power of two numbers lie twice as
    close. -/
def around (mantissa : Nat) (exponent : Int) : RoundingInterval :=
  let (unit, den) := binaryFraction 1 exponent
  let below := if mantissa = hiddenBit && leastExponent < exponent then 1 else 2
  { low := (4 * mantissa - below) * unit, value := 4 * mantissa * unit,
    high := (4 * mantissa + 2) * unit, den := 4 * den, closed := mantissa % 2 = 0 }

/-- Whether the fraction `num / den` reads back as the number. -/
def admits (i : RoundingInterval) (num den : Nat) : Bool :=
  if i.closed then i.low * den ≤ num * i.den && num * i.den ≤ i.high * den
  else i.low * den < num * i.den && num * i.den < i.high * den

/-- The number in units of `10 ^ exponent`, as a fraction. -/
def inUnits (i : RoundingInterval) (exponent : Int) : Nat × Nat :=
  if 0 ≤ exponent then (i.value, i.den * Nat.pow 10 exponent.toNat)
  else (i.value * Nat.pow 10 (-exponent).toNat, i.den)

/-- Whether `digits * 10 ^ exponent` reads back as the number. -/
def admitsDecimal (i : RoundingInterval) (digits : Nat) (exponent : Int) : Bool :=
  if 0 ≤ exponent then i.admits (digits * Nat.pow 10 exponent.toNat) 1
  else i.admits digits (Nat.pow 10 (-exponent).toNat)

/-- The nearer neighbour of the number on the grid of `10 ^ exponent` that reads back as it. -/
def onGrid? (i : RoundingInterval) (exponent : Int) : Option DecimalDigits :=
  let (num, den) := i.inUnits exponent
  let nearest := roundQuotient num den
  let other := if nearest = num / den then nearest + 1 else num / den
  if i.admitsDecimal nearest exponent then some ⟨nearest, exponent⟩
  else if i.admitsDecimal other exponent then some ⟨other, exponent⟩
  else none

/-- The number on the coarsest of `count` grids, each ten times finer than the one before, that
    holds a decimal which reads back as it. -/
def search (i : RoundingInterval) : Nat → Int → Option DecimalDigits
  | 0, _ => none
  | count + 1, exponent =>
    match i.onGrid? exponent with
    | some d => some d
    | none => search i count (exponent - 1)

/-- A power of ten that is at least as great as the number. -/
def magnitude (i : RoundingInterval) : Int :=
  if i.den ≤ i.value then (Nat.toDigits 10 (i.value / i.den)).length
  else 1 - ((Nat.toDigits 10 (i.den / i.value)).length : Int)

end RoundingInterval

/-- Digits without trailing zeros. -/
def trimZeros : Nat → Nat → Int → DecimalDigits
  | 0, digits, exponent => ⟨digits, exponent⟩
  | fuel + 1, digits, exponent =>
    if digits ≠ 0 && digits % 10 = 0 then trimZeros fuel (digits / 10) (exponent + 1)
    else ⟨digits, exponent⟩

/-- The fewest digits that read back as `mantissa * 2 ^ exponent`, a positive number. -/
def shortest (mantissa : Nat) (exponent : Int) : DecimalDigits :=
  let i := RoundingInterval.around mantissa exponent
  match i.search 20 i.magnitude with
  | some d => trimZeros 20 d.digits d.exponent
  | none => ⟨0, 0⟩

/-! ### Layout -/

/-- How the digits of a number are laid out. -/
structure NumberLayout where
  /-- Least power of ten of the first digit that is written with leading zeros. -/
  leastPositional : Int
  /-- Greatest power of ten of the first digit that is written without exponent. -/
  greatestPositional : Int
  /-- Least number of digits of an exponent. -/
  exponentDigits : Nat

/-- Numbers are written without exponent from `0.0001` up to sixteen digits before the point; a
    whole number keeps one zero after the point; an exponent has a sign and two digits or more. -/
def plainLayout : NumberLayout where
  leastPositional := -4
  greatestPositional := 15
  exponentDigits := 2

/-- The digits with an exponent, where `power` is the power of ten of the first digit. -/
def withExponent (layout : NumberLayout) (digits : List Char) (power : Int) : String :=
  let mantissa := match digits with
    | first :: second :: rest => String.ofList (first :: '.' :: second :: rest)
    | few => String.ofList few
  mantissa ++ (if power < 0 then "e-" else "e+") ++ paddedDigits layout.exponentDigits power.natAbs

/-- The digits without exponent, where `power` is the power of ten of the first digit. -/
def positional (digits : List Char) (power : Int) : String :=
  if power < 0 then
    "0." ++ String.ofList (List.replicate (-power - 1).toNat '0' ++ digits)
  else
    let whole := (power + 1).toNat
    let before := digits.take whole ++ List.replicate (whole - digits.length) '0'
    let after := digits.drop whole
    String.ofList before ++ "." ++ (if after.isEmpty then "0" else String.ofList after)

/-- The number in its natural form: the fewest digits that read back. -/
def Real64.natural (layout : NumberLayout) : Real64 → String
  | .nan => "nan"
  | .infinite negative => signText negative ++ "inf"
  | .finite negative mantissa exponent =>
    if mantissa = 0 then signText negative ++ "0.0"
    else
      let d := shortest mantissa exponent
      let digits := Nat.toDigits 10 d.digits
      let power := d.exponent + digits.length - 1
      signText negative ++
        (if layout.leastPositional ≤ power && power ≤ layout.greatestPositional then
          positional digits power
        else withExponent layout digits power)

/-- The natural form of a floating-point number. -/
def floatText (x : Float) : String :=
  (Real64.ofFloat x).natural plainLayout

end ItaniumRtti
