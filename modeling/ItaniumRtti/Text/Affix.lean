namespace ItaniumRtti

/-!
# Beginnings and parts of text

* `hasPrefix` — whether a text begins with another;
* `dropPrefix?` — what follows a given beginning;
* `hasPart` — whether a text contains another.
-/

/-- Whether `text` begins with `start`. -/
def hasPrefix (start text : String) : Bool :=
  start.toList.isPrefixOf text.toList

/-- What follows `start` in `text`, if `text` begins with it. -/
def dropPrefix? (start text : String) : Option String :=
  if hasPrefix start text then some (String.ofList (text.toList.drop start.length)) else none

/-- Whether `part` stands somewhere in `cs`. -/
def hasPartFrom (part : List Char) : List Char → Bool
  | [] => part.isEmpty
  | c :: cs => part.isPrefixOf (c :: cs) || hasPartFrom part cs

/-- Whether `part` stands somewhere in `text`. -/
def hasPart (part text : String) : Bool :=
  hasPartFrom part.toList text.toList

end ItaniumRtti
