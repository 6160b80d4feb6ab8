import ItaniumRtti.Journal.Note
import ItaniumRtti.Journal.Template
import ItaniumRtti.Text.Line
import ItaniumRtti.Text.Number

namespace ItaniumRtti

/-!
# Journals

A journal keeps the notes of one tool.  Work may be put under the heading of an operation or of a
class, and notes made meanwhile carry the heading.

* `Mishap`, `Record` — a note as it is kept;
* `Record.document`, `Record.lines` — the two forms in which it is written;
* `Journal` — the records so far and the headings that hold;
* `Journal.enter`, `Journal.leave`, `Journal.remark` — its operations.
-/

/-- Something that went wrong while a note was made. -/
structure Mishap where
  /-- What kind of thing it was. -/
  kind : String
  /-- What it said. -/
  text : String
  deriving DecidableEq, Repr

/-- What is written about a mishap. -/
def Mishap.message (m : Mishap) : String :=
  if m.text = "" then m.kind else m.kind ++ ": " ++ m.text

/-- What a record says about a mishap. -/
inductive MishapNote where
  /-- It was not asked for. -/
  | none
  /-- It was asked for, but nothing went wrong. -/
  | nothing
  /-- This went wrong. -/
  | some (mishap : Mishap)
  deriving DecidableEq, Repr

/-- A note as it is kept. -/
structure Record extends Note where
  /-- The tool that made it. -/
  tool : String
  /-- A further value. -/
  extra : Option Value := none
  /-- What went wrong. -/
  mishap : MishapNote := .none

namespace Record

/-- The name of the journal that a tool keeps. -/
def journalName (tool : String) : String :=
  "ancestry." ++ tool

/-- A field, if there is a value for it. -/
def optionalField (name : String) : Option Value → List (String × Value)
  | none => []
  | some v => [(name, v)]

/-- The record as a plain value, with the time at which it was made. -/
def document (r : Record) (time : String) : Value :=
  .table ([("timestamp", .text time), ("level", .text r.level.name),
      ("logger", .text (journalName r.tool)), ("message", .text r.message),
      ("tool_name", .text r.tool)] ++
    optionalField "operation" (r.operation.map .text) ++
    optionalField "type_info" (r.typeInfo.map .text) ++ optionalField "extra" r.extra ++
    match r.mishap with
    | .some m => [("exc_info", .text (lastLine m.message))]
    | _ => [])

/-- A text and blanks up to a width. -/
def padRight (width : Nat) (text : String) : String :=
  text ++ String.ofList (List.replicate (width - text.length) ' ')

/-- A text that ends with a line feed: one is added unless it is there. -/
def ended (text : String) : String :=
  if text.toList.getLast? = some '\n' then text else text ++ "\n"

/-- The record as lines of text, without the time. -/
def lines (r : Record) : List String :=
  let text := padRight 8 r.level.name ++ " | " ++ journalName r.tool ++ " | " ++ r.message
  let whole := match r.mishap with
    | .none => text
    | .nothing => ended text ++ "NoneType: None"
    | .some m => ended text ++ m.message
  (textLines (whole ++ "\n").toList).map String.ofList

end Record

/-- A heading, with what held before it. -/
inductive Heading where
  /-- The name of an operation. -/
  | operation (before : Option String)
  /-- The address of a class. -/
  | ofClass (before : Option String)
  /-- Work whose time is taken. -/
  | timed (what : String)
  deriving DecidableEq, Repr

/-- The notes of one tool. -/
structure Journal where
  /-- The tool. -/
  tool : String
  /-- Least level of notes that are kept. -/
  least : Level := .info
  /-- The operation that is going on. -/
  operation : Option String := none
  /-- The class that is being analysed. -/
  typeInfo : Option String := none
  /-- The headings that hold, innermost first. -/
  headings : List Heading := []
  /-- The records, in order. -/
  records : List Record := []

/-- A remark to be noted. -/
structure Remark where
  /-- How grave it is. -/
  level : Level
  /-- Template of the message. -/
  template : String
  /-- Arguments of the template. -/
  arguments : List Value := []
  /-- Further values. -/
  fields : List (String × Value) := []
  /-- Whether what went wrong is noted too, unless a field says otherwise. -/
  withMishap : Bool := false
  /-- Whether it comes from work that is under no heading. -/
  aside : Bool := false
  /-- What went wrong. -/
  mishap : Option Mishap := none

namespace Remark

/-- Whether what went wrong is noted. -/
def wantsMishap (r : Remark) : Bool :=
  match r.fields.lookup "exc_info" with
  | some v => v.isSet
  | none => r.withMishap

/-- The fields that say how to note a remark rather than what. -/
def directions : List String := ["exc_info", "stack_info", "stacklevel", "extra"]

/-- The name under which a field that says how to note a remark gives a further value. -/
def extraName : String := "ancestry_extra"

/-- The further value of the record: the fields that say what to note or, if there are none, what
    the extra field gives. -/
def extra (r : Remark) : Option Value :=
  match r.fields.filter fun (name, _) => !directions.contains name with
  | [] =>
    match r.fields.lookup "extra" with
    | some (.table given) => (given.lookup extraName).filter fun v => !v.isNull
    | _ => none
  | said => some (.table said)

/-- What the record says about a mishap. -/
def mishapNote (r : Remark) : MishapNote :=
  if !r.wantsMishap then .none
  else match r.mishap with
    | none => .nothing
    | some m => .some m

end Remark

namespace Journal

variable (j : Journal)

/-- The journal after a remark.  It is not noted if it is below the least level or if its template
    and arguments do not fit together. -/
def remark (r : Remark) : Journal :=
  if !r.level.passes j.least then j
  else match fillTemplate r.template r.arguments with
    | none => j
    | some message =>
      let note : Record :=
        { level := r.level, message
          operation := if r.aside then none else j.operation
          typeInfo := if r.aside then none else j.typeInfo
          tool := j.tool
          extra := r.extra
          mishap := r.mishapNote }
      { j with records := j.records ++ [note] }

/-- The journal after the beginning of an operation. -/
def enterOperation (name : String) : Journal :=
  { j with operation := some name, headings := .operation j.operation :: j.headings }

/-- The journal after the beginning of work on the class at an address. -/
def enterClass (address : Int) : Journal :=
  { j with typeInfo := some (signedHex address), headings := .ofClass j.typeInfo :: j.headings }

/-- The journal after the beginning of work whose time is taken. -/
def enterTimed (what : String) : Journal :=
  let j := j.remark { level := .debug, template := "Started: %s", arguments := [.text what] }
  { j with headings := .timed what :: j.headings }

/-- The journal after the end of the innermost heading.  Time is not measured. -/
def leave : Journal :=
  match j.headings with
  | [] => j
  | .operation before :: rest => { j with operation := before, headings := rest }
  | .ofClass before :: rest => { j with typeInfo := before, headings := rest }
  | .timed what :: rest =>
    let j := { j with headings := rest }
    j.remark { level := .info, template := "Completed: %s (%.3f sec)",
               arguments := [.text what, .real 0] }

end Journal

end ItaniumRtti
