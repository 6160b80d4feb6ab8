import ItaniumRtti.Value.Basic

namespace ItaniumRtti

/-!
# Values as JSON

* `Value.json` — on one line;
* `Value.jsonIndented` — one item a line, indented by two blanks a level.
-/

/-- A floating-point number as JSON. -/
def jsonReal (x : Float) : String :=
  match Real64.ofFloat x with
  | .nan => "NaN"
  | .infinite negative => signText negative ++ "Infinity"
  | number => number.natural plainLayout

/-- The line break and the blanks of a level. -/
def newLine (level : Nat) : String :=
  String.ofList ('\n' :: List.replicate (2 * level) ' ')

/-- Items between brackets, each on a line of its own. -/
def lined (level : Nat) (opening closing : String) (parts : List String) : String :=
  if parts.isEmpty then opening ++ closing
  else opening ++ newLine (level + 1) ++ String.intercalate ("," ++ newLine (level + 1)) parts ++
    newLine level ++ closing

mutual

/-- A value as JSON on one line. -/
def Value.json : Value → String
  | .null => "null"
  | .bool true => "true"
  | .bool false => "false"
  | .integer n => decimal n
  | .real x => jsonReal x
  | .text s => jsonText s
  | .moment written => jsonText written
  | .list items => bracketed "[" "]" (jsonItems items)
  | .table fields => bracketed "\x7b" "\x7d" (jsonFields fields)

/-- Values as JSON on one line. -/
def jsonItems : List Value → List String
  | [] => []
  | v :: rest => v.json :: jsonItems rest

/-- Named values as JSON on one line. -/
def jsonFields : List (String × Value) → List String
  | [] => []
  | (name, v) :: rest => (jsonText name ++ ": " ++ v.json) :: jsonFields rest

end

mutual

/-- A value as JSON with one item a line, inside `level` levels of brackets. -/
def Value.jsonAt (level : Nat) : Value → String
  | .list items => lined level "[" "]" (jsonItemsAt (level + 1) items)
  | .table fields => lined level "\x7b" "\x7d" (jsonFieldsAt (level + 1) fields)
  | .null => "null"
  | .bool true => "true"
  | .bool false => "false"
  | .integer n => decimal n
  | .real x => jsonReal x
  | .text s => jsonText s
  | .moment written => jsonText written

/-- Values as JSON with one item a line. -/
def jsonItemsAt (level : Nat) : List Value → List String
  | [] => []
  | v :: rest => v.jsonAt level :: jsonItemsAt level rest

/-- Named values as JSON with one item a line. -/
def jsonFieldsAt (level : Nat) : List (String × Value) → List String
  | [] => []
  | (name, v) :: rest => (jsonText name ++ ": " ++ v.jsonAt level) :: jsonFieldsAt level rest

end

/-- A value as JSON with one item a line. -/
def Value.jsonIndented (v : Value) : String :=
  v.jsonAt 0

end ItaniumRtti
