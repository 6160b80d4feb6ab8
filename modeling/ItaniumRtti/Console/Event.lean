import ItaniumRtti.Text.Number
import ItaniumRtti.Value.Basic

namespace ItaniumRtti

/-!
# Console events

What a program shows on the terminal is a list of events.  Texts may hold markup such as
`[bold]…[/bold]`.

* `Tree`, `Grid`, `Event` — what can be shown;
* `Grid.ofRows` — a table in which every row has a cell for every column;
* the functions of the namespace `Console` — the events of common messages.
-/

/-- A tree of labels. -/
inductive Tree where
  /-- A label and what hangs below it. -/
  | node (label : String) (children : List Tree)

/-- A table. -/
structure Grid where
  /-- Title above the table. -/
  title : Option String := none
  /-- Caption below the table. -/
  caption : Option String := none
  /-- Header of each column. -/
  columns : List String
  /-- Style of each column. -/
  styles : List String
  /-- Cells of each row. -/
  rows : List (List String)

/-- Something shown on the terminal. -/
inductive Event where
  /-- A line. -/
  | print (markup : String)
  /-- An empty line. -/
  | blank
  /-- A line across the terminal with a title in it. -/
  | rule (title style : String)
  /-- A message shown while work goes on. -/
  | status (message : String)
  /-- A framed text. -/
  | panel (text title : String)
  /-- A table. -/
  | table (grid : Grid)
  /-- A tree. -/
  | tree (root : Tree)

/-- The texts, and empty ones up to `count` in all. -/
def padTexts (count : Nat) (texts : List String) : List String :=
  texts ++ List.replicate (count - texts.length) ""

/-- A table with the given headers, styles and rows.  A row with more cells than there are headers
    adds columns without header; missing cells and styles are empty.  A table without columns has
    no rows. -/
def Grid.ofRows (title caption : Option String) (columns styles : List String)
    (rows : List (List String)) : Grid :=
  let count := rows.foldl (fun most row => max most row.length) columns.length
  { title, caption, columns := padTexts count columns,
    styles := padTexts count (styles.take columns.length),
    rows := if count = 0 then [] else rows.map (padTexts count) }

namespace Console

/-- A text in a style. -/
def styled (style text : String) : String :=
  "[" ++ style ++ "]" ++ text ++ "[/" ++ style ++ "]"

/-- The name and version of the program. -/
def title (name version : String) : List Event :=
  [.print (styled "ancestry.title" name ++ " " ++ styled "ancestry.dim" ("v" ++ version)), .blank]

/-- The beginning of a section. -/
def startSection (name : String) : List Event :=
  [.rule ("  " ++ name ++ "  ") "ancestry.section", .blank]

/-- A message of success. -/
def success (message : String) : List Event :=
  [.print (styled "ancestry.success" "[✔] SUCCESS:" ++ " " ++ message)]

/-- A warning. -/
def warning (message : String) : List Event :=
  [.print (styled "ancestry.warning" "[⚠] WARNING:" ++ " " ++ message)]

/-- A message of failure. -/
def failure (message : String) : List Event :=
  [.print (styled "ancestry.error" "[✘] ERROR:" ++ " " ++ message)]

/-- A piece of information. -/
def info (message : String) : List Event :=
  [.print (styled "ancestry.info" "[ℹ] INFO:" ++ " " ++ message)]

/-- A message shown while work goes on. -/
def status (message : String) : List Event :=
  [.status (styled "ancestry.info" message)]

/-- The message shown while work goes on if there is no better one. -/
def defaultStatus : String := "Working..."

/-- Empty lines. -/
def blanks (count : Int) : List Event :=
  List.replicate count.toNat .blank

/-- A line across the terminal. -/
def divider (style : String) : List Event :=
  [.rule "" style]

/-- The style of a divider if no other is given. -/
def defaultDivider : String := "dim"

/-- Lines, or an empty line if there is none. -/
def lines (texts : List String) : List Event :=
  if texts.isEmpty then [.blank] else texts.map .print

/-- A table, which may have a title. -/
def table (title : Option String) (columns : List String) (rows : List (List Value))
    (caption : Option String) (styles : List String) : List Event :=
  [.table (.ofRows title caption columns styles (rows.map (·.map (·.display))))]

end Console

end ItaniumRtti
