import ItaniumRtti.Text.Numeral
import ItaniumRtti.Toml.Text
import ItaniumRtti.Value.Basic

namespace ItaniumRtti.Toml

/-!
# Numbers, dates and times of TOML

* `readNumber` — whole numbers in four bases and floating-point numbers;
* `readSpecial` — infinities and what is no number;
* `readMoment` — dates, times of day, and both together.
-/

/-- A value, or why there is no such value. -/
abbrev Found := Except ReadFault Value

/-! ### Numbers -/

/-- The digits at the front of the input.  One underscore may stand between two digits. -/
def digitsWith (isDigit : Char → Bool) : List Char → List Char × List Char
  | '_' :: c :: rest =>
    if isDigit c then
      let (digits, after) := digitsWith isDigit rest
      (c :: digits, after)
    else ([], '_' :: c :: rest)
  | c :: rest =>
    if isDigit c then
      let (digits, after) := digitsWith isDigit rest
      (c :: digits, after)
    else ([], c :: rest)
  | [] => ([], [])

/-- Digits that begin with a digit rather than an underscore. -/
def digitsAt (isDigit : Char → Bool) (input : List Char) : List Char × List Char :=
  match input with
  | '_' :: rest => ([], '_' :: rest)
  | _ => digitsWith isDigit input

/-- The number with the given digits in a base. -/
def numberOf (base : Nat) (digits : List Char) : Nat :=
  digits.foldl (fun n c => base * n + (hexValue? c).getD 0) 0

/-- Digits of a base other than ten, after their mark. -/
def readBased (base : Nat) (isDigit : Char → Bool) (input : List Char) :
    Option (Found × List Char) :=
  match digitsAt isDigit input with
  | ([], _) => none
  | (digits, rest) => some (.ok (.integer (numberOf base digits)), rest)

/-- The whole number in another base at the front of the input. -/
def readOtherBase : Reader Found
  | '0' :: 'x' :: rest => readBased 16 (fun c => (hexValue? c).isSome) rest
  | '0' :: 'b' :: rest => readBased 2 (fun c => c = '0' || c = '1') rest
  | '0' :: 'o' :: rest => readBased 8 (fun c => '0' ≤ c && c ≤ '7') rest
  | _ => none

/-- A sign at the front of the input. -/
def readSign : List Char → Bool × List Char
  | '-' :: rest => (true, rest)
  | '+' :: rest => (false, rest)
  | input => (false, input)

/-- The digits before the point: a zero, or digits that do not begin with one. -/
def wholeDigits : List Char → List Char × List Char
  | '0' :: rest => (['0'], rest)
  | input => digitsAt Char.isDigit input

/-- The digits after a point, if a point with digits is there. -/
def fractionDigits (input : List Char) : List Char × List Char :=
  match input with
  | '.' :: rest =>
    match digitsAt Char.isDigit rest with
    | ([], _) => ([], input)
    | found => found
  | _ => ([], input)

/-- The exponent, if one is there. -/
def readExponent (input : List Char) : Option Int × List Char :=
  match input with
  | c :: rest =>
    if c = 'e' || c = 'E' then
      let (negative, after) := readSign rest
      match digitsAt Char.isDigit after with
      | ([], _) => (none, input)
      | (digits, last) =>
        let n : Int := numberOf 10 digits
        (some (if negative then -n else n), last)
    else (none, input)
  | [] => (none, input)

/-- Powers of ten beyond which every number is infinite or zero. -/
def powerLimit : Nat := 400

/-- The floating-point number nearest to `digits * 10 ^ exponent`. -/
def nearestFloat (digits : Nat) (exponent : Int) : Float :=
  let length := (Nat.toDigits 10 digits).length
  if digits = 0 then 0
  else if (powerLimit : Int) < exponent then 1.0 / 0.0
  else if exponent < -(powerLimit + length : Int) then 0
  else if 0 ≤ exponent then Float.ofScientific (digits * Nat.pow 10 exponent.toNat) false 0
  else Float.ofScientific digits true (-exponent).toNat

/-- A whole number in base ten, unless it has too many digits. -/
def wholeOf (negative : Bool) (digits : List Char) : Found :=
  if mostDigits < digits.length then .error .numberTooLong
  else
    let n : Int := numberOf 10 digits
    .ok (.integer (if negative then -n else n))

/-- A number in base ten. -/
def readDecimal (input : List Char) : Option (Found × List Char) :=
  let (negative, unsigned) := readSign input
  match wholeDigits unsigned with
  | ([], _) => none
  | (whole, rest) =>
    let (fraction, rest) := fractionDigits rest
    let (exponent, rest) := readExponent rest
    if fraction.isEmpty && exponent.isNone then some (wholeOf negative whole, rest)
    else
      let x := nearestFloat (numberOf 10 (whole ++ fraction)) (exponent.getD 0 - fraction.length)
      some (.ok (.real (if negative then -x else x)), rest)

/-- A number. -/
def readNumber (input : List Char) : Option (Found × List Char) :=
  (readOtherBase input).or (readDecimal input)

/-- An infinity, or what is no number. -/
def readSpecial (input : List Char) : Option (Found × List Char) :=
  let (negative, rest) := readSign input
  match rest with
  | 'i' :: 'n' :: 'f' :: after =>
    let x : Float := 1.0 / 0.0
    some (.ok (.real (if negative then -x else x)), after)
  | 'n' :: 'a' :: 'n' :: after => some (.ok (.real (0.0 / 0.0)), after)
  | _ => none

/-! ### Dates and times -/

/-- A number of exactly `count` digits. -/
def readCount (count : Nat) (input : List Char) : Option (Nat × List Char) :=
  let digits := (input.take count).takeWhile Char.isDigit
  if digits.length = count then some (numberOf 10 digits, input.drop count) else none

/-- The input after an expected character. -/
def expect (c : Char) : List Char → Option (List Char)
  | d :: rest => if c = d then some rest else none
  | [] => none

/-- Two digits up to a limit. -/
def readPair (limit : Nat) (input : List Char) : Option (Nat × List Char) :=
  (readCount 2 input).filter fun (n, _) => n ≤ limit

/-- The millionths that the digits of a fraction stand for; further digits are dropped. -/
def millionths (digits : List Char) : Nat :=
  numberOf 10 (digits.take 6 ++ List.replicate (6 - digits.length) '0')

/-- Two digits at least. -/
def twoDigits (n : Nat) : String := paddedDigits 2 n

/-- A time of day in its normal form. -/
def readTime (input : List Char) : Option (String × List Char) := do
  let (hour, rest) ← readPair 23 input
  let (minute, rest) ← readPair 59 (← expect ':' rest)
  let (second, rest) ← readPair 59 (← expect ':' rest)
  let time := twoDigits hour ++ ":" ++ twoDigits minute ++ ":" ++ twoDigits second
  match rest with
  | '.' :: after =>
    let digits := after.takeWhile Char.isDigit
    if digits.isEmpty then return (time, rest)
    else
      let part := millionths digits
      let fraction := if part = 0 then "" else "." ++ paddedDigits 6 part
      return (time ++ fraction, after.dropWhile Char.isDigit)
  | _ => return (time, rest)

/-- The distance from universal time, in its normal form; empty if none is given. -/
def readZone (input : List Char) : String × List Char :=
  match input with
  | 'Z' :: rest | 'z' :: rest => ("+00:00", rest)
  | sign :: rest =>
    if sign = '+' || sign = '-' then
      match (do
        let (hour, after) ← readPair 23 rest
        let (minute, after) ← readPair 59 (← expect ':' after)
        let shown := if hour = 0 && minute = 0 then '+' else sign
        return (String.singleton shown ++ twoDigits hour ++ ":" ++ twoDigits minute, after) :
          Option (String × List Char)) with
      | some found => found
      | none => ("", input)
    else ("", input)
  | [] => ("", input)

/-- The number of days of a month. -/
def daysIn (year month : Nat) : Nat :=
  if month = 2 then
    if year % 4 = 0 && (year % 100 ≠ 0 || year % 400 = 0) then 29 else 28
  else if month = 4 || month = 6 || month = 9 || month = 11 then 30
  else 31

/-- A date, with a month and a day that some year has. -/
def readDate (input : List Char) : Option ((Nat × Nat × Nat) × List Char) := do
  let (year, rest) ← readCount 4 input
  let (month, rest) ← readPair 12 (← expect '-' rest)
  let (day, rest) ← readPair 31 (← expect '-' rest)
  if month = 0 || day = 0 then none else return ((year, month, day), rest)

/-- A date and what may follow it, in its normal form; nothing inside if the calendar does not
    have the date. -/
def readDateTime (input : List Char) : Option (Option String × List Char) := do
  let ((year, month, day), rest) ← readDate input
  let date := paddedDigits 4 year ++ "-" ++ twoDigits month ++ "-" ++ twoDigits day
  let exists? (text : String) : Option String :=
    if year = 0 || daysIn year month < day then none else some text
  match rest with
  | c :: after =>
    if c = 'T' || c = 't' || c = ' ' then
      match readTime after with
      | some (time, last) =>
        let (zone, last) := readZone last
        return (exists? (date ++ " " ++ time ++ zone), last)
      | none => return (exists? date, rest)
    else return (exists? date, rest)
  | [] => return (exists? date, rest)

/-- A date, a time of day, or both, unless the calendar does not have the date. -/
def readMoment (input : List Char) : Option (Found × List Char) :=
  match readDateTime input with
  | some (text, rest) => some ((require text).map .moment, rest)
  | none => (readTime input).map fun (text, rest) => (.ok (.moment text), rest)

end ItaniumRtti.Toml
