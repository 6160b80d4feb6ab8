import ItaniumRtti.Code.Correlate
import ItaniumRtti.Proofs.Name.Components

namespace ItaniumRtti

/-!
# Short names of functions

The short name of a function is found in two passes over its display form.  The first looks at angle
brackets alone and ends the name at the first parenthesis outside them; the second cuts the name at
the separators outside all brackets.

* `Nested` — the brackets of a text are properly nested;
* `Shielded` — all its parentheses stand in angle brackets;
* `beforeArguments_join` — the first pass goes over components of this kind;
* `shortName_of_bare` — a parenthesis outside angle brackets ends the name;
* `splitQualified_colons` — the second pass cuts a run of colons from the left;
* `shortName_of_shielded` — without a bare parenthesis, the short name is the last component;
* `shortName_of_destructor` — so a destructor is recognised if the components of its class's name
  have no such parenthesis, and do not end in an odd number of colons.
-/

/-! ### Nesting -/

/-- The brackets `< >` and `( )` of the text are properly nested. -/
inductive Nested : List Char → Prop
  /-- The empty text. -/
  | nil : Nested []
  /-- A character that is no bracket, and a nested text. -/
  | plain {c : Char} {rest : List Char} : c ∉ ['<', '>', '(', ')'] → Nested rest →
    Nested (c :: rest)
  /-- A nested text in angle brackets, and another one. -/
  | angles {inner rest : List Char} : Nested inner → Nested rest →
    Nested ('<' :: (inner ++ '>' :: rest))
  /-- A nested text in parentheses, and another one. -/
  | parens {inner rest : List Char} : Nested inner → Nested rest →
    Nested ('(' :: (inner ++ ')' :: rest))

/-- A way of counting brackets: other characters do not count, and a closing bracket takes back what
    the opening one adds. -/
structure CountsBrackets (count : Nat → Char → Nat) : Prop where
  /-- Other characters. -/
  plain : ∀ depth c, c ∉ ['<', '>', '(', ')'] → count depth c = depth
  /-- Angle brackets. -/
  angles : ∀ depth, count (count depth '<') '>' = depth
  /-- Parentheses. -/
  parens : ∀ depth, count (count depth '(') ')' = depth

/-- Both kinds of brackets are counted. -/
theorem countsBrackets_nesting : CountsBrackets nesting where
  plain depth c other := by simp_all [nesting]
  angles depth := by simp [nesting]
  parens depth := by simp [nesting]

/-- Only angle brackets are counted. -/
theorem countsBrackets_angleNesting : CountsBrackets angleNesting where
  plain depth c other := by simp_all [angleNesting]
  angles depth := by simp [angleNesting]
  parens depth := by simp [angleNesting]

namespace Nested

variable {text : List Char}

/-- A nested text ends at the depth it starts at, whichever brackets are counted. -/
theorem depth_eq (nested : Nested text) {count : Nat → Char → Nat} (counts : CountsBrackets count)
    (depth : Nat) : depthAfter count depth text = depth := by
  induction nested generalizing depth with
  | nil => rfl
  | plain other _ ih => rw [depthAfter_cons, ih, counts.plain depth _ other]
  | angles _ _ first second => simp [first, second, counts.angles]
  | parens _ _ first second => simp [first, second, counts.parens]

/-- A text without brackets is nested. -/
theorem of_plain (plain : ∀ c ∈ text, c ∉ ['<', '>', '(', ')']) : Nested text := by
  induction text with
  | nil => exact .nil
  | cons c rest ih =>
    obtain ⟨first, others⟩ := List.forall_mem_cons.mp plain
    exact .plain first (ih others)

/-- Nested texts can follow each other. -/
theorem append {other : List Char} (nested : Nested text) (also : Nested other) :
    Nested (text ++ other) := by
  induction nested with
  | nil => exact also
  | plain plain _ ih => exact .plain plain ih
  | angles inner _ _ ih =>
    rw [List.cons_append, List.append_assoc]
    exact .angles inner ih
  | parens inner _ _ ih =>
    rw [List.cons_append, List.append_assoc]
    exact .parens inner ih

/-- Nested texts stay nested when they are joined by separators. -/
theorem join {texts : List (List Char)} (nested : ∀ text ∈ texts, Nested text) :
    Nested ([':', ':'].intercalate texts) := by
  induction texts with
  | nil => exact .nil
  | cons text texts ih =>
    obtain ⟨first, others⟩ := List.forall_mem_cons.mp nested
    cases texts with
    | nil => rwa [List.intercalate_singleton]
    | cons next texts =>
      rw [List.intercalate_cons_cons, List.append_assoc]
      exact first.append (.plain (by decide) (.plain (by decide) (ih others)))

end Nested

/-! ### The first pass -/

/-- Every `(` of the text stands in angle brackets, if the text is read from their depth `depth`
    on. -/
abbrev Shielded (depth : Nat) (text : List Char) : Prop :=
  Sheltered angleNesting ['('] depth text

/-- The first character is no bare parenthesis, and none is in the rest. -/
theorem shielded_cons {depth : Nat} {c : Char} {rest : List Char} :
    Shielded depth (c :: rest) ↔
      (depth = 0 → c ≠ '(') ∧ Shielded (angleNesting depth c) rest := by
  rw [Shielded, sheltered_cons, List.singleton_prefix_cons_iff, eq_comm (b := c)]

/-- A text that is not shielded has a first bare parenthesis. -/
theorem exists_bare {depth : Nat} {text : List Char} (bare : ¬ Shielded depth text) :
    ∃ head tail, text = head ++ '(' :: tail ∧ Shielded depth head ∧
      depthAfter angleNesting depth head = 0 := by
  induction text generalizing depth with
  | nil => exact absurd (sheltered_of_not_mem List.mem_cons_self List.not_mem_nil depth) bare
  | cons c rest ih =>
    by_cases here : depth = 0 ∧ c = '('
    · obtain ⟨rfl, rfl⟩ := here
      exact ⟨[], rest, rfl, sheltered_of_not_mem List.mem_cons_self List.not_mem_nil 0, rfl⟩
    · have first : depth = 0 → c ≠ '(' := fun zero paren => here ⟨zero, paren⟩
      have later : ¬ Shielded (angleNesting depth c) rest :=
        fun shielded => bare (shielded_cons.mpr ⟨first, shielded⟩)
      obtain ⟨head, tail, rfl, shielded, zero⟩ := ih later
      exact ⟨c :: head, tail, rfl, shielded_cons.mpr ⟨first, shielded⟩, zero⟩

/-- Of some texts, not all shielded, the first that is not, divided at its first bare
    parenthesis. -/
theorem exists_bare_of_path {path : List String}
    (bare : ¬ ∀ text ∈ path, Shielded 0 text.toList) :
    ∃ front head tail back, path = front ++ (head ++ ("(" ++ tail)) :: back ∧
      (∀ text ∈ front, Shielded 0 text.toList) ∧ Shielded 0 head.toList ∧
      depthAfter angleNesting 0 head.toList = 0 := by
  induction path with
  | nil => exact absurd (List.forall_mem_nil _) bare
  | cons text path ih =>
    -- The first text that is not shielded is this one, or the first such in the rest.
    by_cases here : Shielded 0 text.toList
    · have later : ¬ ∀ text ∈ path, Shielded 0 text.toList :=
        fun all => bare (List.forall_mem_cons.mpr ⟨here, all⟩)
      obtain ⟨front, head, tail, back, rfl, shielded, divided⟩ := ih later
      exact ⟨text :: front, head, tail, back, rfl, List.forall_mem_cons.mpr ⟨here, shielded⟩,
        divided⟩
    · obtain ⟨head, tail, split, shielded, zero⟩ := exists_bare here
      refine ⟨[], .ofList head, .ofList tail, path, ?_, List.forall_mem_nil _, ?_, ?_⟩
      · rw [List.nil_append, List.cons.injEq, ← String.toList_inj, split]
        simp
      · rwa [String.toList_ofList]
      · rwa [String.toList_ofList]

/-- The first pass goes over a shielded text. -/
theorem beforeArguments_append {depth : Nat} {text : List Char} (shielded : Shielded depth text)
    (rest : List Char) :
    beforeArguments depth (text ++ rest) =
      text ++ beforeArguments (depthAfter angleNesting depth text) rest := by
  induction text generalizing depth with
  | nil => rfl
  | cons c text ih =>
    obtain ⟨first, later⟩ := shielded_cons.mp shielded
    rw [List.cons_append, beforeArguments.eq_3 depth c _ first, ih later]
    rfl

/-- The first pass shows whether a text is shielded. -/
theorem shielded_iff {depth : Nat} {text : List Char} :
    Shielded depth text ↔ beforeArguments depth text = text := by
  constructor
  · intro shielded
    have whole := beforeArguments_append shielded []
    simpa [beforeArguments] using whole
  · intro whole
    by_contra bare
    obtain ⟨head, tail, rfl, shielded, zero⟩ := exists_bare bare
    rw [beforeArguments_append shielded, zero, beforeArguments] at whole
    simp at whole

instance (depth : Nat) (text : List Char) : Decidable (Shielded depth text) :=
  decidable_of_iff _ shielded_iff.symm

/-- The first pass goes over shielded components with closed angle brackets, and the separators
    between them. -/
theorem beforeArguments_join {texts : List (List Char)}
    (shielded : ∀ text ∈ texts, Shielded 0 text ∧ depthAfter angleNesting 0 text = 0)
    (rest : List Char) :
    beforeArguments 0 ([':', ':'].intercalate texts ++ rest) =
      [':', ':'].intercalate texts ++ beforeArguments 0 rest := by
  induction texts with
  | nil => rfl
  | cons text texts ih =>
    obtain ⟨⟨first, closed⟩, others⟩ := List.forall_mem_cons.mp shielded
    cases texts with
    | nil => rw [List.intercalate_singleton, beforeArguments_append first, closed]
    | cons next texts =>
      -- Colons do not change the depth.
      have separator : ∀ more, beforeArguments 0 (':' :: ':' :: more) =
          ':' :: ':' :: beforeArguments 0 more := fun more => by
        simp [beforeArguments, angleNesting]
      simp only [List.intercalate_cons_cons, List.append_assoc, List.cons_append, List.nil_append,
        beforeArguments_append first, closed, separator, ih others]

/-! ### The second pass -/

/-- The short name is the last part of what stands before the first bare parenthesis. -/
theorem shortName_of_bare {demangle : Demangler} {symbol text : String} (named : symbol ≠ "")
    (display : demangle symbol = some text) {components : List String}
    (shielded : ∀ piece ∈ components,
      Shielded 0 piece.toList ∧ depthAfter angleNesting 0 piece.toList = 0)
    {rest : String} (begins : text = String.intercalate "::" components ++ "(" ++ rest) :
    shortName demangle symbol =
      (splitQualified (String.intercalate "::" components)).getLast?.getD
        (String.intercalate "::" components) := by
  have filled : text ≠ "" := by
    rintro rfl
    have empty := congrArg String.toList begins
    simp at empty
  -- The first pass stops at the parenthesis after the components.
  have name : String.ofList (beforeArguments 0 text.toList) =
      String.intercalate "::" components := by
    rw [begins, ← String.toList_inj, String.toList_ofList, String.toList_append,
      String.toList_append, String.toList_intercalate, List.append_assoc]
    show beforeArguments 0 ([':', ':'].intercalate _ ++ '(' :: rest.toList) = _
    rw [beforeArguments_join (by simpa using shielded), beforeArguments, List.append_nil]
    rfl
  unfold shortName
  rw [if_neg named, display, Option.filter_some, if_pos (decide_eq_true filled)]
  dsimp only
  rw [name]

/-- What stands before a place in one of the texts comes first in their join. -/
theorem intercalate_divided (separator head tail : String) (front back : List String) :
    ∃ rest, String.intercalate separator (front ++ (head ++ tail) :: back) =
      String.intercalate separator (front ++ [head]) ++ tail ++ rest := by
  induction front with
  | nil =>
    -- What follows the divided text is the rest, with a separator unless nothing follows.
    cases back with
    | nil => exact ⟨"", by simp⟩
    | cons next back =>
      refine ⟨separator ++ String.intercalate separator (next :: back), ?_⟩
      simp [String.intercalate_cons_cons, String.append_assoc]
  | cons text front ih =>
    obtain ⟨rest, split⟩ := ih
    refine ⟨rest, ?_⟩
    rw [List.cons_append, String.intercalate_cons_of_ne_nil (by simp), split, List.cons_append,
      String.intercalate_cons_of_ne_nil (by simp)]
    simp [String.append_assoc]

/-! ### Destructors -/

/-- The number of colons that the text ends in. -/
def trailingColons (text : String) : Nat :=
  (text.toList.reverse.takeWhile (· == ':')).length

/-- The text without the colons at its end. -/
theorem exists_front (text : String) :
    ∃ front, text.toList = front ++ List.replicate (trailingColons text) ':' ∧
      front.getLast? ≠ some ':' := by
  have colons : text.toList.reverse.takeWhile (· == ':') =
      List.replicate (trailingColons text) ':' := by
    refine List.eq_replicate_iff.mpr ⟨rfl, fun c member => ?_⟩
    exact beq_iff_eq.mp (List.all_eq_true.mp List.all_takeWhile c member)
  refine ⟨(text.toList.reverse.dropWhile (· == ':')).reverse, ?_, fun ends => ?_⟩
  · rw [← List.reverse_replicate, ← colons, ← List.reverse_append,
      List.takeWhile_append_dropWhile, List.reverse_reverse]
  · have first := List.head?_dropWhile_not (· == ':') text.toList.reverse
    rw [List.getLast?_reverse] at ends
    rw [ends] at first
    exact absurd first (by decide)

/-- Colons leave the depth as it is. -/
theorem depthAfter_colons (depth count : Nat) :
    depthAfter nesting depth (List.replicate count ':') = depth := by
  have nested : Nested (List.replicate count ':') := by
    refine .of_plain fun c member => ?_
    rw [List.eq_of_mem_replicate member]
    decide
  exact nested.depth_eq countsBrackets_nesting depth

/-- A run of colons is cut from the left, so that one is left before what follows if their number is
    odd. -/
theorem splitQualified_colons {last : String} (filled : last ≠ "") (plain : ':' ∉ last.toList) :
    ∀ count : Nat, splitQualified (String.ofList (List.replicate count ':') ++ last) =
      [String.ofList (List.replicate (count % 2) ':') ++ last]
  | 0 => by
    have uncut : Uncut 0 last.toList := sheltered_of_not_mem List.mem_cons_self plain 0
    simpa using splitQualified_of_uncut uncut filled
  | 1 => by
    -- one colon is no separator
    have uncut : Uncut 0 (String.ofList [':'] ++ last).toList := by
      rw [String.toList_append, String.toList_ofList, List.singleton_append, uncut_cons]
      refine ⟨fun back _ _ split => plain ?_, sheltered_of_not_mem List.mem_cons_self plain _⟩
      rw [split]
      exact List.mem_cons_self ..
    exact splitQualified_of_uncut uncut (by simp)
  | count + 2 => by
    have empty : Closed "".toList := ⟨rfl, by simp⟩
    have more : String.ofList (List.replicate (count + 2) ':') ++ last =
        "" ++ "::" ++ (String.ofList (List.replicate count ':') ++ last) := by
      rw [← String.toList_inj]
      simp [List.replicate_succ]
    rw [more, splitQualified_append empty, splitQualified_colons filled plain count,
      Nat.add_mod_right]
    rfl

/-- The short name is a plain text at the end of a shielded path, and a colon before it if the path
    ends in an odd number of them. -/
theorem shortName_of_shielded {demangle : Demangler} {symbol : String} (named : symbol ≠ "")
    {path : List String} {last arguments : String} (present : path ≠ [])
    (components : ∀ text ∈ path, Nested text.toList)
    (shielded : ∀ text ∈ path, Shielded 0 text.toList)
    (filled : last ≠ "") (plain : ∀ c ∈ last.toList, c ∉ ['<', '>', '(', ')', ':'])
    (display : demangle symbol =
      some (String.intercalate "::" path ++ "::" ++ last ++ "(" ++ arguments)) :
    shortName demangle symbol =
      String.ofList (List.replicate (trailingColons (String.intercalate "::" path) % 2) ':') ++
        last := by
  have nested : Nested last.toList := by
    apply Nested.of_plain
    intro c member bracket
    exact plain c member (List.mem_append_left [':'] bracket)
  have bare : Shielded 0 last.toList :=
    sheltered_of_not_mem List.mem_cons_self (fun member => plain '(' member (by decide)) 0
  have whole : String.intercalate "::" (path ++ [last]) =
      String.intercalate "::" path ++ "::" ++ last := by
    rw [String.intercalate_append_of_ne_nil present (by simp), String.intercalate_singleton]
  -- The path can end in colons, which run into the separator: a cut is made at the first two of
  -- them.
  obtain ⟨front, split, colon⟩ := exists_front (String.intercalate "::" path)
  have closed : Closed (String.ofList front).toList := by
    rw [String.toList_ofList]
    refine ⟨?_, colon⟩
    have depth : depthAfter nesting 0 (String.intercalate "::" path).toList = 0 := by
      rw [String.toList_intercalate]
      refine Nested.depth_eq ?_ countsBrackets_nesting 0
      apply Nested.join
      rw [List.forall_mem_map]
      exact components
    rwa [split, depthAfter_append, depthAfter_colons] at depth
  -- The separator may as well stand before the colons.
  have swap : ∀ count : Nat, List.replicate count ':' ++ "::".toList =
      "::".toList ++ List.replicate count ':' := by
    intro count
    show List.replicate count ':' ++ List.replicate 2 ':' =
      List.replicate 2 ':' ++ List.replicate count ':'
    rw [List.replicate_append_replicate, List.replicate_append_replicate, Nat.add_comm]
  have divided : String.intercalate "::" path ++ "::" ++ last = String.ofList front ++ "::" ++
      (String.ofList (List.replicate (trailingColons (String.intercalate "::" path)) ':') ++
        last) := by
    rw [← String.toList_inj]
    simp only [String.toList_append, String.toList_ofList, split, List.append_assoc]
    rw [← List.append_assoc (List.replicate _ ':'), swap, List.append_assoc]
  rw [← whole] at display
  rw [shortName_of_bare named display _ rfl, whole, divided, splitQualified_append closed,
    splitQualified_colons filled (fun member => plain ':' member (by decide)), List.getLast?_append]
  · rfl
  · rw [List.forall_mem_append, List.forall_mem_singleton]
    refine ⟨fun text member => ?_, bare, nested.depth_eq countsBrackets_angleNesting 0⟩
    exact ⟨shielded text member, (components text member).depth_eq countsBrackets_angleNesting 0⟩

/-- **Destructors are recognised unless a parenthesis or a colon stands bare.**  Take a function
    whose display form is a path of components with properly nested brackets, then `::~`, a class
    name without brackets and colons, and arguments in parentheses.  If all parentheses of the
    components stand in angle brackets, and the path does not end in an odd number of colons, the
    short name is `~` and the class name, so that the function is taken for a destructor.  One colon
    too many stays before the `~`, and the function is taken for a constructor.  If a parenthesis
    stands outside angle brackets, the short name comes from what stands before the first such one,
    and all after it is taken for arguments. -/
theorem shortName_of_destructor (demangle : Demangler) (f : Function) (path : List String)
    (name arguments : String) (present : path ≠ [])
    (components : ∀ text ∈ path, Nested text.toList)
    (plain : ∀ c ∈ name.toList, c ∉ ['<', '>', '(', ')', ':']) (named : f.name ≠ "")
    (display : demangle f.name =
      some (String.intercalate "::" path ++ "::~" ++ name ++ "(" ++ arguments)) :
    ((∀ text ∈ path, Shielded 0 text.toList) →
      (trailingColons (String.intercalate "::" path) % 2 = 0 →
        shortName demangle f.name = "~" ++ name ∧ namesDestructor demangle f.name = true ∧
          Role.ofFunction demangle f = .destructor) ∧
      (trailingColons (String.intercalate "::" path) % 2 = 1 →
        shortName demangle f.name = ":~" ++ name ∧ namesDestructor demangle f.name = false ∧
          Role.ofFunction demangle f = .constructor)) ∧
    ((¬ ∀ text ∈ path, Shielded 0 text.toList) →
      ∃ front head tail back, path = front ++ (head ++ ("(" ++ tail)) :: back ∧
        (∀ text ∈ front, Shielded 0 text.toList) ∧ Shielded 0 head.toList ∧
        depthAfter angleNesting 0 head.toList = 0 ∧
        shortName demangle f.name =
          (splitQualified (String.intercalate "::" (front ++ [head]))).getLast?.getD
            (String.intercalate "::" (front ++ [head]))) := by
  constructor
  · intro shielded
    -- With the tilde, the class name is still a plain text at the end of the path.
    have tilde : ∀ c ∈ ("~" ++ name).toList, c ∉ ['<', '>', '(', ')', ':'] := by
      rw [String.toList_append, List.forall_mem_append]
      exact ⟨by simp, plain⟩
    have begins : String.intercalate "::" path ++ "::~" ++ name ++ "(" ++ arguments =
        String.intercalate "::" path ++ "::" ++ ("~" ++ name) ++ "(" ++ arguments := by
      rw [show "::~" = "::" ++ "~" from rfl]
      simp only [String.append_assoc]
    rw [begins] at display
    have short := shortName_of_shielded named present components shielded (by simp) tilde display
    constructor
    · intro even
      rw [even] at short
      replace short : shortName demangle f.name = "~" ++ name := by simpa using short
      have destroys : namesDestructor demangle f.name = true := by
        simp [namesDestructor, named, short, hasPrefix]
      refine ⟨short, destroys, ?_⟩
      rw [Role.ofFunction, if_pos destroys]
    · intro odd
      rw [odd] at short
      replace short : shortName demangle f.name = ":~" ++ name := by
        rw [short, ← String.toList_inj]
        simp
      -- The name begins with a colon, so that the tilde is not seen.
      have constructs : namesDestructor demangle f.name = false := by
        simp [namesDestructor, named, short, hasPrefix, List.isPrefixOf]
      refine ⟨short, constructs, ?_⟩
      rw [Role.ofFunction, if_neg (by rw [constructs]; exact Bool.false_ne_true)]
  · intro some
    obtain ⟨front, head, tail, back, rfl, shielded, bare, zero⟩ := exists_bare_of_path some
    refine ⟨front, head, tail, back, rfl, shielded, bare, zero, ?_⟩
    -- All that follows the bare parenthesis is taken for arguments.
    obtain ⟨rest, divided⟩ := intercalate_divided "::" head ("(" ++ tail) front back
    have begins : String.intercalate "::" (front ++ (head ++ ("(" ++ tail)) :: back) ++ "::~" ++
        name ++ "(" ++ arguments = String.intercalate "::" (front ++ [head]) ++ "(" ++
        (tail ++ rest ++ "::~" ++ name ++ "(" ++ arguments) := by
      rw [divided]
      simp only [String.append_assoc]
    refine shortName_of_bare named display ?_ begins
    rw [List.forall_mem_append, List.forall_mem_singleton]
    refine ⟨fun text member => ⟨shielded text member, ?_⟩, bare, zero⟩
    exact (components text (List.mem_append_left _ member)).depth_eq countsBrackets_angleNesting 0

/-- The display forms of the destructors of a template with a function type as its argument, and of
    a class in an unnamed namespace. -/
def Demangler.sampleDestructors : Demangler
  | "_ZN2ns3FooIFviEED2Ev" => some "ns::Foo<void (int)>::~Foo()"
  | "_ZN12_GLOBAL__N_13FooD2Ev" => some "(anonymous namespace)::Foo::~Foo()"
  | _ => none

/-- The destructor of the template is recognised.  Of the other one nothing is left, since its name
    begins with a bare parenthesis. -/
theorem shortName_of_destructor_sample :
    shortName .sampleDestructors "_ZN2ns3FooIFviEED2Ev" = "~Foo" ∧
    Role.ofFunction .sampleDestructors ⟨0x1000, "_ZN2ns3FooIFviEED2Ev", 0⟩ = .destructor ∧
    shortName .sampleDestructors "_ZN12_GLOBAL__N_13FooD2Ev" = "" ∧
    Role.ofFunction .sampleDestructors ⟨0x2000, "_ZN12_GLOBAL__N_13FooD2Ev", 0⟩ = .constructor := by
  -- The parenthesis stands in the argument of the template, in angle brackets.
  have argument : Nested (['v', 'o', 'i', 'd', ' '] ++ '(' :: (['i', 'n', 't'] ++ [')'])) :=
    (Nested.of_plain (by simp)).append (.parens (.of_plain (by simp)) .nil)
  have template : Nested "Foo<void (int)>".toList :=
    (Nested.of_plain (by simp) : Nested ['F', 'o', 'o']).append (.angles argument .nil)
  have components : ∀ text ∈ ["ns", "Foo<void (int)>"], Nested text.toList := by
    rw [List.forall_mem_cons, List.forall_mem_singleton]
    exact ⟨.of_plain (by simp), template⟩
  have recognised := ((shortName_of_destructor .sampleDestructors
    ⟨0x1000, "_ZN2ns3FooIFviEED2Ev", 0⟩ ["ns", "Foo<void (int)>"] "Foo" ")" (by decide) components
    (by simp) (by decide) rfl).1 (by decide +kernel)).1 (by decide +kernel)
  exact ⟨recognised.1, recognised.2.2, by decide +kernel, by decide +kernel⟩

end ItaniumRtti
