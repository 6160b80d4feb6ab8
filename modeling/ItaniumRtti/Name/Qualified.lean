namespace ItaniumRtti

/-!
# Qualified names

A demangled name such as `ns::Foo<std::string>::bar(int)` is a path whose components are divided
by `::` outside brackets.

* `nesting` / `angleNesting` — bracket depth after a character, never below zero;
* `pieces` — what stands between the top-level separators, empty pieces included;
* `splitQualified` — the non-empty pieces;
* `beforeArguments` — the name without its argument list.
-/

/-- The bracket depth after `c`; a closing bracket without an opening one is ignored. -/
def nesting (depth : Nat) (c : Char) : Nat :=
  if c = '<' ∨ c = '(' then depth + 1
  else if c = '>' ∨ c = ')' then depth - 1
  else depth

/-- The depth of angle brackets alone after `c`. -/
def angleNesting (depth : Nat) (c : Char) : Nat :=
  if c = '<' then depth + 1 else if c = '>' then depth - 1 else depth

/-- The pieces with `c` in front of the first one. -/
def extendFirst (c : Char) : List (List Char) → List (List Char)
  | [] => [[c]]
  | piece :: rest => (c :: piece) :: rest

/-- What stands between the separators `::` outside brackets, from bracket depth `depth` on. -/
def pieces : Nat → List Char → List (List Char)
  | _, [] => [[]]
  | 0, ':' :: ':' :: rest => [] :: pieces 0 rest
  | depth, c :: rest => extendFirst c (pieces (nesting depth c) rest)

/-- The components of a qualified name; empty ones are dropped. -/
def splitQualified (name : String) : List String :=
  ((pieces 0 name.toList).filter (fun piece => !piece.isEmpty)).map String.ofList

/-- The characters before the first parenthesis outside angle brackets. -/
def beforeArguments : Nat → List Char → List Char
  | _, [] => []
  | 0, '(' :: _ => []
  | depth, c :: rest => c :: beforeArguments (angleNesting depth c) rest

end ItaniumRtti
