import ItaniumRtti.Toml.Number

namespace ItaniumRtti.Toml

/-!
# TOML documents

* `Fields` — the named values of a table;
* `readValue` — a value;
* `Fields.update?` — a change of the table at a path;
* `Paths` — which tables a document has opened or closed to changes;
* `Document`, `Document.statement` — a document in the making, and one statement's part in it;
* `parse` — a whole document.
-/

/-- The named values of a table, in order. -/
abbrev Fields := List (String × Value)

/-! ### Tables inside tables -/

namespace Fields

/-- The fields with a new value for a name that is there. -/
def replace (fields : Fields) (name : String) (v : Value) : Fields :=
  fields.map fun field => if field.1 == name then (name, v) else field

/-- The fields after a change of the table at `path`; tables on the way are made if they are
    missing.  With `throughLists` a list on the way stands for its last item.  Nothing if a value
    on the way is no table. -/
def update? (throughLists : Bool) (change : Fields → Option Fields) :
    List String → Fields → Option Fields
  | [], fields => change fields
  | name :: path, fields =>
    match fields.lookup name with
    | none => do
      let inner ← update? throughLists change path []
      return fields ++ [(name, .table inner)]
    | some (.table inner) => do
      let inner ← update? throughLists change path inner
      return fields.replace name (.table inner)
    | some (.list items) =>
      match throughLists, items.getLast? with
      | true, some (.table inner) => do
        let inner ← update? throughLists change path inner
        return fields.replace name (.list (items.dropLast ++ [.table inner]))
      | _, _ => none
    | some _ => none

/-- The fields with one more, unless its name is there already. -/
def insert? (name : String) (v : Value) (fields : Fields) : Option Fields :=
  if (fields.lookup name).isSome then none else some (fields ++ [(name, v)])

/-- The fields with an empty table more at the end of a list of tables. -/
def extend? (name : String) (fields : Fields) : Option Fields :=
  match fields.lookup name with
  | none => some (fields ++ [(name, .list [.table []])])
  | some (.list items) => some (fields.replace name (.list (items ++ [.table []])))
  | some _ => none

end Fields

/-- Whether a value is a list or a table. -/
def isContainer : Value → Bool
  | .list _ => true
  | .table _ => true
  | _ => false

/-- Whether `path` lies at or below one of `paths`. -/
def coveredBy (paths : List (List String)) (path : List String) : Bool :=
  paths.any fun p => p.isPrefixOf path

/-! ### Values -/

/-- How deep lists and tables may stand inside one another, where a list counts for
    `listDepth` and a table for `tableDepth`. -/
def mostDepth : Nat := 978

/-- What a list adds to the depth of its items. -/
def listDepth : Nat := 2

/-- What a table on one line adds to the depth of its fields. -/
def tableDepth : Nat := 3

/-- The depth left after something took `taken` of it. -/
def deeper (taken depth : Nat) : Except ReadFault Nat :=
  if depth < taken then .error .nestedTooDeep else .ok (depth - taken)

mutual

/-- A value.  `fuel` bounds the number of values in it and `depth` how deep they stand. -/
def readValue : Nat → Nat → List Char → Except ReadFault (Value × List Char)
  | 0, _, _ => .error .malformed
  | fuel + 1, depth, input =>
    match input with
    | '"' :: _ => (require (readText input)).map fun (text, rest) => (.text text, rest)
    | '\'' :: _ => (require (readText input)).map fun (text, rest) => (.text text, rest)
    | 't' :: 'r' :: 'u' :: 'e' :: rest => .ok (.bool true, rest)
    | 'f' :: 'a' :: 'l' :: 's' :: 'e' :: rest => .ok (.bool false, rest)
    | '[' :: rest => do
      let depth ← deeper listDepth depth
      match ← require (skipBetween rest.length rest) with
      | ']' :: after => return (.list [], after)
      | items =>
        let (values, after) ← readItems fuel depth items
        return (.list values, after)
    | '\x7b' :: rest => do
      let depth ← deeper tableDepth depth
      match skipBlanks rest with
      | '\x7d' :: after => return (.table [], after)
      | pairs =>
        let (fields, after) ← readPairs fuel depth [] [] pairs
        return (.table fields, after)
    | _ => do
      let (v, rest) ←
        require ((readMoment input).or ((readNumber input).or (readSpecial input)))
      return (← v, rest)

/-- The items of a list that is not empty, and its closing bracket.  A comma may follow the last
    one. -/
def readItems : Nat → Nat → List Char → Except ReadFault (List Value × List Char)
  | 0, _, _ => .error .malformed
  | fuel + 1, depth, input => do
    let (v, rest) ← readValue fuel depth input
    match ← require (skipBetween rest.length rest) with
    | ']' :: after => return ([v], after)
    | ',' :: after =>
      match ← require (skipBetween after.length after) with
      | ']' :: last => return ([v], last)
      | next =>
        let (values, last) ← readItems fuel depth next
        return (v :: values, last)
    | _ => throw .malformed

/-- The fields of a table on one line that is not empty, and its closing bracket.  Fields read
    earlier are `fields`, and `closed` are the keys of those that hold lists or tables. -/
def readPairs : Nat → Nat → List (List String) → Fields → List Char →
    Except ReadFault (Fields × List Char)
  | 0, _, _, _, _ => .error .malformed
  | fuel + 1, depth, closed, fields, input => do
    let (key, rest) ← require (readKey input)
    let value ← require (expect '=' rest)
    let (v, rest) ← readValue fuel depth (skipBlanks value)
    if coveredBy closed key then throw .malformed
    let fields ←
      require (fields.update? false (Fields.insert? (key.getLastD "") v) key.dropLast)
    match skipBlanks rest with
    | '\x7d' :: after => return (fields, after)
    | ',' :: after =>
      let closed := if isContainer v then key :: closed else closed
      readPairs fuel depth closed fields (skipBlanks after)
    | _ => throw .malformed

end

/-! ### Statements -/

/-- Which tables a document has opened or closed to changes, by their paths. -/
structure Paths where
  /-- Tables that have a heading or were made by a key of several names. -/
  opened : List (List String) := []
  /-- Lists and tables that are complete. -/
  closed : List (List String) := []
  /-- Tables made by keys of several names since the last heading. -/
  pending : List (List String) := []

/-- A document in the making. -/
structure Document where
  /-- What it holds so far. -/
  fields : Fields := []
  /-- Its tables. -/
  paths : Paths := {}
  /-- The table that statements go to. -/
  heading : List String := []

namespace Document

/-- The paths after a heading: what was pending is opened. -/
def settle (paths : Paths) : Paths :=
  { paths with opened := paths.pending ++ paths.opened, pending := [] }

/-- The document after the heading of a table. -/
def openTable (d : Document) (key : List String) : Option Document :=
  let paths := settle d.paths
  if paths.opened.contains key || coveredBy paths.closed key then none
  else do
    let fields ← d.fields.update? true some key
    return { fields, paths := { paths with opened := key :: paths.opened }, heading := key }

/-- The document after the heading of a new item of a list of tables.  What was known about the
    tables of the item before is forgotten. -/
def openItem (d : Document) (key : List String) : Option Document :=
  let paths := settle d.paths
  if coveredBy paths.closed key then none
  else do
    let fields ← d.fields.update? true (Fields.extend? (key.getLastD "")) key.dropLast
    let outside (paths : List (List String)) := paths.filter fun p => !key.isPrefixOf p
    return { fields, heading := key,
             paths := { paths with opened := key :: outside paths.opened,
                                   closed := outside paths.closed } }

/-- The paths of the tables that a key of several names runs through below a heading. -/
def innerPaths (heading key : List String) : List (List String) :=
  (List.range (key.length - 1)).map fun i => heading ++ key.take (i + 1)

/-- The document after a key and its value. -/
def assign (d : Document) (key : List String) (v : Value) : Option Document :=
  let inner := innerPaths d.heading key
  let holder := d.heading ++ key.dropLast
  if inner.any d.paths.opened.contains then none
  else if coveredBy d.paths.closed holder then none
  else do
    let fields ← d.fields.update? true (Fields.insert? (key.getLastD "") v) holder
    let closed := if isContainer v then (d.heading ++ key) :: d.paths.closed else d.paths.closed
    return { d with fields,
                    paths := { d.paths with pending := inner ++ d.paths.pending, closed } }

/-- The document after one statement at the front of the input, and the rest of the input. -/
def statement (d : Document) (input : List Char) : Except ReadFault (Document × List Char) :=
  match input with
  | '[' :: '[' :: rest => require do
    let (key, after) ← readKey (skipBlanks rest)
    let d ← d.openItem key
    let last ← expect ']' (← expect ']' after)
    return (d, last)
  | '[' :: rest => require do
    let (key, after) ← readKey (skipBlanks rest)
    let d ← d.openTable key
    let last ← expect ']' after
    return (d, last)
  | c :: _ =>
    if !beginsName c then .error .malformed
    else do
      let (key, rest) ← require (readKey input)
      let value := skipBlanks (← require (expect '=' rest))
      let (v, last) ← readValue (2 * value.length + 2) mostDepth value
      let d ← require (d.assign key v)
      return (d, last)
  | [] => .error .malformed

/-- The document after at most `fuel` lines. -/
def lines : Nat → Document → List Char → Except ReadFault Document
  | 0, _, _ => .error .malformed
  | fuel + 1, d, input =>
    match skipBlanks input with
    | [] => .ok d
    | '\n' :: rest => lines fuel d rest
    | c :: rest => do
      let (d, after) ← if c = '#' then .ok (d, c :: rest) else d.statement (c :: rest)
      match ← require (skipComment (skipBlanks after)) with
      | [] => return d
      | '\n' :: next => lines fuel d next
      | _ => throw .malformed

end Document

/-- Line breaks of two characters as one. -/
def joinLineBreaks : List Char → List Char
  | '\r' :: '\n' :: rest => '\n' :: joinLineBreaks rest
  | c :: rest => c :: joinLineBreaks rest
  | [] => []

/-- The fields of a document. -/
def parse (text : String) : Except ReadFault Fields :=
  let input := joinLineBreaks text.toList
  (Document.lines (input.length + 1) {} input).map (·.fields)

end ItaniumRtti.Toml
