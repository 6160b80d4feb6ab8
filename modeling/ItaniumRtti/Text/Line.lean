namespace ItaniumRtti

/-!
# Lines of text

* `isLineBreak` — the characters that end a line;
* `textLines` — the lines of a text;
* `lastLine` — the last one.
-/

/-- Whether a character ends a line: a line feed, a carriage return, a vertical tab, a form feed, a
    separator of information, a next-line control, or a separator of lines or paragraphs. -/
def isLineBreak (c : Char) : Bool :=
  (10 ≤ c.toNat && c.toNat ≤ 13) || (0x1c ≤ c.toNat && c.toNat ≤ 0x1e) || c.toNat = 0x85 ||
    c.toNat = 0x2028 || c.toNat = 0x2029

/-- The lines of a text, without what ends them.  A carriage return and a line feed after it end one
    line; nothing follows the last end of a line. -/
def textLines : List Char → List (List Char)
  | [] => []
  | '\r' :: '\n' :: rest => [] :: textLines rest
  | c :: rest =>
    if isLineBreak c then [] :: textLines rest
    else match textLines rest with
      | [] => [[c]]
      | line :: more => (c :: line) :: more

/-- The last line of a text. -/
def lastLine (text : String) : String :=
  String.ofList ((textLines text.toList).getLastD [])

end ItaniumRtti
