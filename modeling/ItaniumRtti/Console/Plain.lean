import ItaniumRtti.Console.Event

namespace ItaniumRtti

/-!
# Events as plain text

* `dropMarkup` — a text without its markup;
* `Tree.lines`, `Grid.lines`, `Event.lines` — the lines of a terminal without colours.
-/

/-- Whether the text between brackets is markup: the name of a style, or the end of one. -/
def isMarkup (inner : List Char) : Bool :=
  match inner with
  | [] => false
  | c :: rest => (c = '/' || c.isLower) && rest.all fun c => c.isLower || c = '.' || c = '_' ||
      c = ' '

/-- A text without its markup.  `fuel` bounds the number of brackets. -/
def dropMarkupFrom : Nat → List Char → List Char
  | 0, text => text
  | fuel + 1, text =>
    let before := text.takeWhile (· ≠ '[')
    match text.dropWhile (· ≠ '[') with
    | [] => before
    | bracket :: rest =>
      let inner := rest.takeWhile (· ≠ ']')
      if isMarkup inner then before ++ dropMarkupFrom fuel (rest.drop (inner.length + 1))
      else before ++ bracket :: dropMarkupFrom fuel rest

/-- A text without its markup. -/
def dropMarkup (text : String) : String :=
  String.ofList (dropMarkupFrom (text.length + 1) text.toList)

/-- A text and blanks up to a width. -/
def fillRight (width : Nat) (text : String) : String :=
  text ++ String.ofList (List.replicate (width - text.length) ' ')

mutual

/-- The lines of a tree, indented. -/
def Tree.lines (indent : Nat) : Tree → List String
  | .node label children =>
    (String.ofList (List.replicate indent ' ') ++ dropMarkup label) ::
      forestLines (indent + 2) children

/-- The lines of several trees. -/
def forestLines (indent : Nat) : List Tree → List String
  | [] => []
  | tree :: rest => tree.lines indent ++ forestLines indent rest

end

/-- The lines of a table, its columns aligned. -/
def Grid.lines (g : Grid) : List String :=
  let rows := (g.columns :: g.rows).map (·.map dropMarkup)
  let widths := rows.foldl
    (fun widths row => widths.zipWith (fun width cell => max width cell.length) row)
    (g.columns.map fun _ => 0)
  let line (row : List String) : String :=
    String.intercalate "  " (widths.zipWith fillRight row)
  g.title.toList ++ rows.map line ++ g.caption.toList

/-- The lines of an event. -/
def Event.lines : Event → List String
  | .print markup => [dropMarkup markup]
  | .blank => [""]
  | .rule title _ => ["----" ++ title ++ "----"]
  | .status message => [dropMarkup message]
  | .panel text title => dropMarkup title :: (text.splitOn "\n").map dropMarkup
  | .table grid => grid.lines
  | .tree root => root.lines 0

end ItaniumRtti
