namespace ItaniumRtti.Toml

/-!
# Texts and keys of TOML

A reader takes characters from the front of its input and gives back what it read and the rest,
or nothing if the input is not what it expects.

* `ReadFault` — why a document cannot be read;
* `skipBlanks`, `skipLines`, `skipComment` — what may stand between parts;
* `basicText`, `literalText`, `longLiteralText` — the four kinds of quoted text;
* `readText` — a quoted text of any kind;
* `readKey` — a key, which is a list of names.
-/

/-- A reader of values of type `α`. -/
abbrev Reader (α : Type) := List Char → Option (α × List Char)

/-- Why a document cannot be read. -/
inductive ReadFault where
  /-- It is not well formed. -/
  | malformed
  /-- It holds a whole number with too many digits. -/
  | numberTooLong
  /-- It holds lists and tables too deep inside one another. -/
  | nestedTooDeep
  deriving DecidableEq, Repr

/-- What must be there, or else the document is not well formed. -/
def require {α : Type} : Option α → Except ReadFault α
  | none => .error .malformed
  | some found => .ok found

/-- Whether a character is a blank within a line. -/
def isBlank (c : Char) : Bool :=
  c = ' ' || c = '\t'

/-- Whether a character is a control character other than a tab. -/
def isControl (c : Char) : Bool :=
  c ≠ '\t' && (c.toNat < 0x20 || c.toNat = 0x7f)

/-- The input after blanks. -/
def skipBlanks (input : List Char) : List Char :=
  input.dropWhile isBlank

/-- The input after blanks and line breaks. -/
def skipLines (input : List Char) : List Char :=
  input.dropWhile fun c => isBlank c || c = '\n'

/-- The input after a comment, if it begins with one.  A comment has no control characters. -/
def skipComment (input : List Char) : Option (List Char) :=
  match input with
  | '#' :: rest =>
    if (rest.takeWhile (· ≠ '\n')).any isControl then none else some (rest.dropWhile (· ≠ '\n'))
  | _ => some input

/-- The input after blanks, line breaks and at most `fuel` comments. -/
def skipBetween : Nat → List Char → Option (List Char)
  | 0, input => some (skipLines input)
  | fuel + 1, input =>
    match skipLines input with
    | '#' :: rest => (skipComment ('#' :: rest)).bind (skipBetween fuel)
    | rest => some rest

/-! ### Quoted texts -/

/-- The value of a hexadecimal digit. -/
def hexValue? (c : Char) : Option Nat :=
  if '0' ≤ c && c ≤ '9' then some (c.toNat - 48)
  else if 'a' ≤ c && c ≤ 'f' then some (c.toNat - 87)
  else if 'A' ≤ c && c ≤ 'F' then some (c.toNat - 55)
  else none

/-- The character whose code the hexadecimal digits give. -/
def hexChar? (digits : List Char) : Option Char := do
  let values ← digits.mapM hexValue?
  let code := values.foldl (fun code d => 16 * code + d) 0
  if code.isValidChar then some (Char.ofNat code) else none

/-- The character that a backslash and `c` stand for. -/
def escaped? (c : Char) : Option Char :=
  match c with
  | 'b' => some '\x08'
  | 't' => some '\t'
  | 'n' => some '\n'
  | 'f' => some '\x0c'
  | 'r' => some '\r'
  | '"' => some '"'
  | '\\' => some '\\'
  | _ => none

/-- What a text is leaving out after a backslash at the end of a line. -/
inductive Skipping where
  /-- Nothing. -/
  | nothing
  /-- Blanks up to the line break. -/
  | lineEnd
  /-- Blanks and line breaks. -/
  | lines
  deriving DecidableEq

/-- The characters of a text between double quotes, up to and without its closing ones.  A text
    over several lines closes with three quotes. -/
def basicText (long : Bool) : Skipping → Reader (List Char)
  | _, [] => none
  | .lineEnd, c :: rest =>
    if isBlank c then basicText long .lineEnd rest
    else if c = '\n' then basicText long .lines rest
    else none
  | skipping, c :: rest =>
    if skipping = .lines && (isBlank c || c = '\n') then basicText long .lines rest
    else if c = '"' then
      if !long then some ([], rest)
      else match rest with
        | '"' :: '"' :: after => some ([], after)
        | _ => (basicText long .nothing rest).map fun (text, after) => ('"' :: text, after)
    else if c = '\\' then
      match rest with
      | 'u' :: a :: b :: c :: d :: after => do
        let char ← hexChar? [a, b, c, d]
        let (text, last) ← basicText long .nothing after
        return (char :: text, last)
      | 'U' :: a :: b :: c :: d :: e :: f :: g :: h :: after => do
        let char ← hexChar? [a, b, c, d, e, f, g, h]
        let (text, last) ← basicText long .nothing after
        return (char :: text, last)
      | e :: after =>
        if long && isBlank e then basicText long .lineEnd after
        else if long && e = '\n' then basicText long .lines after
        else do
          let char ← escaped? e
          let (text, last) ← basicText long .nothing after
          return (char :: text, last)
      | [] => none
    else if isControl c && !(long && c = '\n') then none
    else (basicText long .nothing rest).map fun (text, after) => (c :: text, after)

/-- The characters of a text between single quotes, up to and without the closing one. -/
def literalText : Reader (List Char)
  | [] => none
  | '\'' :: rest => some ([], rest)
  | c :: rest =>
    if isControl c then none
    else (literalText rest).map fun (text, after) => (c :: text, after)

/-- The characters of a text between three single quotes, up to and without the closing ones. -/
def longLiteralText : Reader (List Char)
  | [] => none
  | '\'' :: '\'' :: '\'' :: rest => some ([], rest)
  | c :: rest =>
    if isControl c && c ≠ '\n' then none
    else (longLiteralText rest).map fun (text, after) => (c :: text, after)

/-- The input without a line break at its front. -/
def dropLineBreak : List Char → List Char
  | '\n' :: rest => rest
  | input => input

/-- A long text with the quotes that stand before its closing ones, two at most. -/
def withLastQuotes (quote : Char) (text : List Char) (rest : List Char) : List Char × List Char :=
  let quotes := (rest.take 2).takeWhile (· = quote)
  (text ++ quotes, rest.drop quotes.length)

/-- A quoted text of any kind. -/
def readText : Reader String
  | '"' :: '"' :: '"' :: rest => do
    let (text, after) ← basicText true .nothing (dropLineBreak rest)
    let (text, after) := withLastQuotes '"' text after
    return (String.ofList text, after)
  | '\'' :: '\'' :: '\'' :: rest => do
    let (text, after) ← longLiteralText (dropLineBreak rest)
    let (text, after) := withLastQuotes '\'' text after
    return (String.ofList text, after)
  | '"' :: rest => do
    let (text, after) ← basicText false .nothing rest
    return (String.ofList text, after)
  | '\'' :: rest => do
    let (text, after) ← literalText rest
    return (String.ofList text, after)
  | _ => none

/-! ### Keys -/

/-- Whether a character may stand in a name without quotes. -/
def isNameChar (c : Char) : Bool :=
  c.isAlphanum || c = '-' || c = '_'

/-- Whether a character begins a name. -/
def beginsName (c : Char) : Bool :=
  isNameChar c || c = '"' || c = '\''

/-- A name, with or without quotes, on one line. -/
def readName (input : List Char) : Option (String × List Char) :=
  match input with
  | [] => none
  | '"' :: rest => (basicText false .nothing rest).map fun (text, after) =>
      (String.ofList text, after)
  | '\'' :: rest => (literalText rest).map fun (text, after) => (String.ofList text, after)
  | c :: _ =>
    if isNameChar c then
      some (String.ofList (input.takeWhile isNameChar), input.dropWhile isNameChar)
    else none

/-- A key: names with points between them, at most `fuel` after the first. -/
def readNames : Nat → Reader (List String)
  | 0, _ => none
  | fuel + 1, input => do
    let (name, rest) ← readName input
    match skipBlanks rest with
    | '.' :: after =>
      let (names, last) ← readNames fuel (skipBlanks after)
      return (name :: names, last)
    | after => return ([name], after)

/-- A key and the input after the blanks that follow it. -/
def readKey (input : List Char) : Option (List String × List Char) :=
  readNames (input.length + 1) input

end ItaniumRtti.Toml
