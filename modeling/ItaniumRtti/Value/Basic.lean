import ItaniumRtti.Text.Decimal
import ItaniumRtti.Text.Quoted

namespace ItaniumRtti

/-!
# Plain values

Settings, report documents, journal fields and table cells hold values of mixed types.

* `Value` — such a value;
* `Value.display` — its text, in which a text stands for itself;
* `Value.quoted` — its text, in which texts are quoted.
-/

/-- A value of any of the types that settings and documents hold. -/
inductive Value where
  /-- No value. -/
  | null
  /-- True or false. -/
  | bool (b : Bool)
  /-- A whole number. -/
  | integer (n : Int)
  /-- A floating-point number. -/
  | real (x : Float)
  /-- A text. -/
  | text (s : String)
  /-- A date, a time of day or both, as written. -/
  | moment (written : String)
  /-- A list of values. -/
  | list (items : List Value)
  /-- Named values in order. -/
  | table (fields : List (String × Value))

/-- Separated texts between brackets. -/
def bracketed (opening closing : String) (parts : List String) : String :=
  opening ++ String.intercalate ", " parts ++ closing

mutual

/-- The text of a value, in which texts are quoted. -/
def Value.quoted : Value → String
  | .null => "None"
  | .bool true => "True"
  | .bool false => "False"
  | .integer n => decimal n
  | .real x => floatText x
  | .text s => quoteText s
  | .moment written => written
  | .list items => bracketed "[" "]" (quotedItems items)
  | .table fields => bracketed "\x7b" "\x7d" (quotedFields fields)

/-- The texts of values. -/
def quotedItems : List Value → List String
  | [] => []
  | v :: rest => v.quoted :: quotedItems rest

/-- The texts of named values. -/
def quotedFields : List (String × Value) → List String
  | [] => []
  | (name, v) :: rest => (quoteText name ++ ": " ++ v.quoted) :: quotedFields rest

end

/-- The text of a value, in which a text stands for itself. -/
def Value.display : Value → String
  | .text s => s
  | v => v.quoted

/-- Whether a value is no value. -/
def Value.isNull : Value → Bool
  | .null => true
  | _ => false

/-- Whether a value counts as set: neither nothing, nor false, nor zero, nor empty. -/
def Value.isSet : Value → Bool
  | .null => false
  | .bool b => b
  | .integer n => n ≠ 0
  | .real x => x != 0
  | .text s => s ≠ ""
  | .moment _ => true
  | .list items => !items.isEmpty
  | .table fields => !fields.isEmpty

end ItaniumRtti
