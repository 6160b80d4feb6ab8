import ItaniumRtti.Value.Basic

namespace ItaniumRtti

/-!
# Message templates

A template holds directives such as `%s`, `%#x` or `%8.3f`, which arguments take the place of.

* `Directive` — a directive;
* `readDirective` — the directive at the front of a text;
* `Directive.render?` — the text of an argument as a directive asks for it;
* `Supply` — the arguments that are still to be used;
* `fillTemplate` — the message, unless template and arguments do not fit together.
-/

/-- A number in a directive. -/
inductive Amount where
  /-- Written in the directive. -/
  | written (n : Nat)
  /-- Taken from the arguments. -/
  | argument
  deriving DecidableEq, Repr

/-- A directive. -/
structure Directive where
  /-- The name of the argument that it shows. -/
  key : Option String := none
  /-- Marks before the width. -/
  marks : List Char := []
  /-- Least number of characters. -/
  width : Option Amount := none
  /-- Number of digits or greatest number of characters. -/
  precision : Option Amount := none
  /-- How the argument is shown. -/
  form : Char
  deriving DecidableEq, Repr

/-! ### Reading directives -/

/-- A number at the front of a text. -/
def readAmount (text : List Char) : Option Amount × List Char :=
  match text with
  | '*' :: rest => (some .argument, rest)
  | _ =>
    let digits := text.takeWhile Char.isDigit
    if digits.isEmpty then (none, text)
    else
      (some (.written (digits.foldl (fun n c => 10 * n + (c.toNat - 48)) 0)),
        text.dropWhile Char.isDigit)

/-- The name in parentheses, which may hold parentheses itself; `depth` of them are open. -/
def readParenthesized : Nat → List Char → Option (List Char × List Char)
  | _, [] => none
  | depth, c :: rest =>
    if c = ')' && depth = 0 then some ([], rest)
    else
      let depth := if c = '(' then depth + 1 else if c = ')' then depth - 1 else depth
      (readParenthesized depth rest).map fun (name, after) => (c :: name, after)

/-- The name of an argument at the front of a text, if one is there. -/
def readDirectiveKey (text : List Char) : Option (Option String × List Char) :=
  match text with
  | '(' :: rest =>
    (readParenthesized 0 rest).map fun (name, after) => (some (String.ofList name), after)
  | _ => some (none, text)

/-- The directive at the front of a text, after its percent sign. -/
def readDirective (text : List Char) : Option (Directive × List Char) := do
  let (key, rest) ← readDirectiveKey text
  let isMark (c : Char) : Bool := "-+ #0".toList.contains c
  let marks := rest.takeWhile isMark
  let (width, rest) := readAmount (rest.dropWhile isMark)
  let (precision, rest) := match rest with
    | '.' :: after =>
      let (amount, last) := readAmount after
      (some (amount.getD (.written 0)), last)
    | _ => (none, rest)
  let rest := match rest with
    | c :: after => if c = 'h' || c = 'l' || c = 'L' then after else rest
    | [] => rest
  match rest with
  | form :: after => some ({ key, marks, width, precision, form }, after)
  | [] => none

/-! ### Showing arguments -/

/-- How wide an argument is shown and with how many digits. -/
structure Extent where
  /-- Least number of characters. -/
  width : Nat := 0
  /-- Whether it stands at the left of this width. -/
  left : Bool := false
  /-- Number of digits or greatest number of characters. -/
  precision : Option Nat := none

/-- Repeated characters. -/
def repeated (count : Nat) (c : Char) : String :=
  String.ofList (List.replicate count c)

/-- A text in a given width. -/
def Extent.placeText (e : Extent) (text : String) : String :=
  let gap := e.width - text.length
  if e.left then text ++ repeated gap ' ' else repeated gap ' ' ++ text

/-- A number in a given width, with its sign and the mark of its base. -/
def Extent.placeNumber (e : Extent) (zeros : Bool) (sign mark digits : String) : String :=
  let gap := e.width - (sign.length + mark.length + digits.length)
  if e.left then sign ++ mark ++ digits ++ repeated gap ' '
  else if zeros then sign ++ mark ++ repeated gap '0' ++ digits
  else repeated gap ' ' ++ sign ++ mark ++ digits

namespace Directive

variable (d : Directive)

/-- The sign of a number. -/
def sign (negative : Bool) : String :=
  if negative then "-"
  else if d.marks.contains '+' then "+"
  else if d.marks.contains ' ' then " "
  else ""

/-- A whole number in a base. -/
def renderWhole (e : Extent) (base : Nat) (mark : String) (n : Int) : String :=
  let digits := Nat.toDigits base n.natAbs
  let digits := List.replicate (e.precision.getD 0 - digits.length) '0' ++ digits
  let digits := if d.form = 'X' then digits.map Char.toUpper else digits
  e.placeNumber (d.marks.contains '0') (d.sign (n < 0))
    (if d.marks.contains '#' then mark else "") (String.ofList digits)

/-- Digits without zeros, and without a point, at their end. -/
def dropZeros (digits : String) : String :=
  if digits.toList.contains '.' then
    let kept := digits.toList.reverse.dropWhile (· = '0')
    String.ofList (kept.dropWhile (· = '.')).reverse
  else digits

/-- Digits with a point at their end, if they have none. -/
def keepPoint (digits : String) : String :=
  if digits.toList.contains '.' then digits else digits ++ "."

/-- A positive number with a set number of places and an exponent. -/
def renderScientific (places mantissa : Nat) (exponent : Int) : String × String :=
  let (digits, power) := leadingDigits (places + 1) mantissa exponent
  let shown := pointed places digits
  (shown, (if power < 0 then "e-" else "e+") ++ paddedDigits 2 power.natAbs)

/-- A positive number with a set number of digits, with an exponent if it is far from one. -/
def renderGeneral (tidy : String → String) (count mantissa : Nat) (exponent : Int) : String :=
  let count := max count 1
  let (_, power) := leadingDigits count mantissa exponent
  if -4 ≤ power && power < count then
    let places := ((count : Int) - 1 - power).toNat
    tidy (pointed places (inPlaces mantissa exponent places))
  else
    let (digits, tail) := renderScientific (count - 1) mantissa exponent
    tidy digits ++ tail

/-- A floating-point number. -/
def renderFloat (e : Extent) (x : Float) : String :=
  let precision := e.precision.getD 6
  let full := d.marks.contains '#'
  let tidy := if full then keepPoint else id
  let (negative, shown) : Bool × String :=
    match Real64.ofFloat x with
    | .nan => (false, "nan")
    | .infinite negative => (negative, "inf")
    | .finite negative mantissa exponent =>
      (negative,
        if d.form.toLower = 'f' then
          tidy (pointed precision (inPlaces mantissa exponent precision))
        else if d.form.toLower = 'e' then
          let (digits, tail) := renderScientific precision mantissa exponent
          tidy digits ++ tail
        else renderGeneral (if full then keepPoint else dropZeros) precision mantissa exponent)
  let shown := if d.form.isUpper then shown.toUpper else shown
  e.placeNumber (d.marks.contains '0') (d.sign negative) "" shown

/-- A value as a whole number; the part after the point is dropped. -/
def whole? : Value → Option Int
  | .integer n => some n
  | .bool b => some (if b then 1 else 0)
  | .real x =>
    match Real64.ofFloat x with
    | .finite negative mantissa exponent =>
      let (num, den) := binaryFraction mantissa exponent
      let n : Int := (num / den : Nat)
      some (if negative then -n else n)
    | _ => none
  | _ => none

/-- A value as a whole number, if it is one. -/
def integer? : Value → Option Int
  | .integer n => some n
  | .bool b => some (if b then 1 else 0)
  | _ => none

/-- A value as a floating-point number, unless it is a whole number out of their range. -/
def float? : Value → Option Float
  | .integer n =>
    let x := Float.ofInt n
    if x.isFinite then some x else none
  | .bool b => some (if b then 1 else 0)
  | .real x => some x
  | _ => none

/-- A value as a single character. -/
def character? : Value → Option String
  | .text s => if s.length = 1 then some s else none
  | v => do
    let n ← integer? v
    guard (0 ≤ n && n.toNat.isValidChar)
    return String.singleton (Char.ofNat n.toNat)

/-- The characters of a text that its precision leaves. -/
def cut (e : Extent) (text : String) : String :=
  match e.precision with
  | none => text
  | some count => String.ofList (text.toList.take count)

/-- The text of an argument as the directive asks for it. -/
def render? (e : Extent) (v : Value) : Option String :=
  match d.form with
  | 's' => some (e.placeText (cut e v.display))
  | 'r' => some (e.placeText (cut e v.quoted))
  | 'a' => some (e.placeText (cut e (asciiText v.quoted)))
  | 'd' | 'i' | 'u' => (whole? v).map (d.renderWhole e 10 "")
  | 'x' => (integer? v).map (d.renderWhole e 16 "0x")
  | 'X' => (integer? v).map (d.renderWhole e 16 "0X")
  | 'o' => (integer? v).map (d.renderWhole e 8 "0o")
  | 'e' | 'E' | 'f' | 'F' | 'g' | 'G' => (float? v).map (d.renderFloat e)
  | 'c' => (character? v).map e.placeText
  | _ => none

end Directive

/-! ### Filling templates -/

/-- The arguments that are still to be used. -/
inductive Supply where
  /-- Arguments in order. -/
  | sequence (rest : List Value)
  /-- Named arguments, which may also be shown as a whole, once. -/
  | named (fields : List (String × Value)) (used : Bool)

namespace Supply

/-- The supply that a list of arguments is: a single table that is not empty gives names. -/
def ofArguments : List Value → Supply
  | [.table (field :: fields)] => .named (field :: fields) false
  | arguments => .sequence arguments

/-- The next argument. -/
def next? : Supply → Option (Value × Supply)
  | .sequence (v :: rest) => some (v, .sequence rest)
  | .sequence [] => none
  | .named fields false => some (.table fields, .named fields true)
  | .named _ true => none

/-- The argument for a directive. -/
def take? (s : Supply) : Option String → Option (Value × Supply)
  | none => s.next?
  | some key =>
    match s with
    | .sequence _ => none
    | .named fields _ => (fields.lookup key).map fun v => (v, .named fields true)

/-- Whether no argument is left over. -/
def isSpent : Supply → Bool
  | .sequence rest => rest.isEmpty
  | .named _ _ => true

/-- The value of an amount, which may be negative if it is an argument. -/
def amount? (s : Supply) : Option Amount → Option (Option Int × Supply)
  | none => some (none, s)
  | some (.written n) => some (some n, s)
  | some .argument => do
    let (v, s) ← s.next?
    let n ← Directive.integer? v
    return (some n, s)

/-- The greatest width or precision that a directive may ask for. -/
def greatestExtent : Nat := 2147483647

/-- How wide an argument is shown and with how many digits. -/
def extent? (s : Supply) (d : Directive) : Option (Extent × Supply) := do
  let (width, s) ← s.amount? d.width
  let (precision, s) ← s.amount? d.precision
  let width := width.getD 0
  guard (width.natAbs ≤ greatestExtent && (precision.getD 0).natAbs ≤ greatestExtent)
  return ({ width := width.natAbs, left := d.marks.contains '-' || width < 0,
            precision := precision.map (·.toNat) }, s)

end Supply

/-- The message that a template and arguments give.  `fuel` bounds the number of directives. -/
def fillFrom : Nat → List Char → Supply → Option String
  | 0, _, _ => none
  | fuel + 1, template, supply => do
    let plain := String.ofList (template.takeWhile (· ≠ '%'))
    match template.dropWhile (· ≠ '%') with
    | [] => if supply.isSpent then some plain else none
    | _ :: '%' :: rest =>
      let more ← fillFrom fuel rest supply
      return plain ++ "%" ++ more
    | _ :: rest =>
      let (d, rest) ← readDirective rest
      let (extent, supply) ← supply.extent? d
      let (v, supply) ← supply.take? d.key
      let shown ← d.render? extent v
      let more ← fillFrom fuel rest supply
      return plain ++ shown ++ more

/-- The message that a template and arguments give, unless they do not fit together.  Without
    arguments the template is the message. -/
def fillTemplate (template : String) (arguments : List Value) : Option String :=
  if arguments.isEmpty then some template
  else fillFrom (template.length + 1) template.toList (.ofArguments arguments)

end ItaniumRtti
