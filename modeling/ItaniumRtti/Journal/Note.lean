namespace ItaniumRtti

/-!
# Journal notes

* `Level` — how grave a note is;
* `Level.ofName` — the level that a name stands for;
* `Note` — a message with the operation and the class it is about.
-/

/-- How grave a note is. -/
inductive Level where
  | debug
  | info
  | warning
  | error
  | critical
  deriving DecidableEq, Repr

/-- Why a name cannot be used as that of a level. -/
inductive LevelFault where
  /-- It is the name of the layout of lines. -/
  | layout
  /-- It is the name of the collection of layouts. -/
  | layouts
  deriving DecidableEq, Repr

namespace Level

/-- The word for a level. -/
def name : Level → String
  | .debug => "DEBUG"
  | .info => "INFO"
  | .warning => "WARNING"
  | .error => "ERROR"
  | .critical => "CRITICAL"

/-- The rank of a level, higher for graver ones. -/
def rank : Level → Nat
  | .debug => 10
  | .info => 20
  | .warning => 30
  | .error => 40
  | .critical => 50

/-- The capital of a letter.  A dotless `i` and a long `s` have the same capitals as the plain
    ones; other letters outside ASCII are in no level's name. -/
def capital (c : Char) : Char :=
  if c = 'ı' then 'I' else if c = 'ſ' then 'S' else c.toUpper

/-- The least level that a journal keeps, by the name given for it in any case.  A name that says
    nothing stands for `info`; a journal told to set no level of its own keeps warnings.  The names
    of a journal's layouts are no levels. -/
def ofName (name : String) : Except LevelFault Level :=
  match String.ofList (name.toList.map capital) with
  | "DEBUG" => .ok .debug
  | "INFO" => .ok .info
  | "WARNING" | "WARN" | "NOTSET" => .ok .warning
  | "ERROR" => .ok .error
  | "CRITICAL" | "FATAL" => .ok .critical
  | "BASIC_FORMAT" => .error .layout
  | "_STYLES" => .error .layouts
  | _ => .ok .info

/-- Whether a note of level `level` passes the threshold `least`. -/
def passes (level least : Level) : Bool :=
  least.rank ≤ level.rank

end Level

/-- A message of the journal. -/
structure Note where
  /-- How grave it is. -/
  level : Level
  /-- What it says. -/
  message : String
  /-- The operation that was going on. -/
  operation : Option String := none
  /-- The class that was being analysed. -/
  typeInfo : Option String := none
  deriving DecidableEq, Repr

end ItaniumRtti
