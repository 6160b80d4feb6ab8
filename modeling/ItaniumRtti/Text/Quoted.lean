import ItaniumRtti.Text.Number
import ItaniumRtti.Text.Visible

namespace ItaniumRtti

/-!
# Quoted text

Ways of writing a text between quotes.

* `quoteText` — between single quotes, or double ones if the text itself has single quotes only;
* `asciiText` — with all characters beyond ASCII written by their numbers;
* `jsonText` — as a JSON string, in which all but control characters, quotes and backslashes
  stand for themselves.
-/

/-- `n` in at least `count` hexadecimal digits. -/
def paddedHex (count n : Nat) : String :=
  let digits := Nat.toDigits 16 n
  String.ofList (List.replicate (count - digits.length) '0' ++ digits)

/-- A character written by its number. -/
def escapedChar (c : Char) : String :=
  if c.toNat < 0x100 then "\\x" ++ paddedHex 2 c.toNat
  else if c.toNat < 0x10000 then "\\u" ++ paddedHex 4 c.toNat
  else "\\U" ++ paddedHex 8 c.toNat

/-- A character as it is written between the given quotes. -/
def quoteChar (quote c : Char) : String :=
  if c = quote || c = '\\' then String.ofList ['\\', c]
  else if c = '\n' then "\\n"
  else if c = '\r' then "\\r"
  else if c = '\t' then "\\t"
  else if isVisible c then String.singleton c
  else escapedChar c

/-- A text between quotes. -/
def quoteText (text : String) : String :=
  let quote := if text.toList.contains '\'' && !text.toList.contains '"' then '"' else '\''
  String.singleton quote ++ String.join (text.toList.map (quoteChar quote)) ++
    String.singleton quote

/-- A text in which the characters beyond ASCII are written by their numbers. -/
def asciiText (text : String) : String :=
  String.join (text.toList.map fun c =>
    if c.toNat < 0x80 then String.singleton c else escapedChar c)

/-- A character as it is written in a JSON string. -/
def jsonChar (c : Char) : String :=
  if c = '"' || c = '\\' then String.ofList ['\\', c]
  else if c = '\n' then "\\n"
  else if c = '\r' then "\\r"
  else if c = '\t' then "\\t"
  else if c.toNat = 8 then "\\b"
  else if c.toNat = 12 then "\\f"
  else if c.toNat < 0x20 then "\\u" ++ paddedHex 4 c.toNat
  else String.singleton c

/-- A text as a JSON string. -/
def jsonText (text : String) : String :=
  "\"" ++ String.join (text.toList.map jsonChar) ++ "\""

end ItaniumRtti
