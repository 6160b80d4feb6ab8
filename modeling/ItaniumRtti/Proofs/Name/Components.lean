import ItaniumRtti.Name.Demangled
import Mathlib.Data.List.Basic

namespace ItaniumRtti

/-!
# Components of a qualified name

A name is cut at each `::` outside brackets, and a run of colons is cut from the left.  What comes
out are texts without such a separator, and every one that another follows has its brackets closed
and does not end in a colon.  Texts of this kind are cut apart again exactly where they were joined,
also when the empty ones among them are left out, so cutting and joining gives a normal form.

* `depthAfter` — the bracket depth after a text, `Sheltered` — a mark stands in brackets only;
* `Uncut`, `Closed`, `Separable` — the texts that come out;
* `pieces_join` — they are cut apart where they were joined;
* `separable_pieces`, `join_pieces` — and these are all that come out;
* `Cuts` — the components of a name;
* `splitQualified_normal` — the parts of a name are its components that are not empty, and they are
  the parts of their own join.
-/

/-! ### Bracket depth -/

section

variable {count : Nat → Char → Nat} {mark : List Char}

/-- The bracket depth after `text`, from `depth` on.  The depth after one more character is told by
    `count`, which may disregard some brackets. -/
def depthAfter (count : Nat → Char → Nat) (depth : Nat) (text : List Char) : Nat :=
  text.foldl count depth

@[simp] theorem depthAfter_nil (depth : Nat) : depthAfter count depth [] = depth :=
  rfl

@[simp] theorem depthAfter_cons (depth : Nat) (c : Char) (text : List Char) :
    depthAfter count depth (c :: text) = depthAfter count (count depth c) text :=
  rfl

@[simp] theorem depthAfter_append (depth : Nat) (first second : List Char) :
    depthAfter count depth (first ++ second) =
      depthAfter count (depthAfter count depth first) second :=
  List.foldl_append

/-- Wherever `mark` stands in the text, it stands in brackets, if the text is read from bracket
    depth `depth` on. -/
def Sheltered (count : Nat → Char → Nat) (mark : List Char) (depth : Nat) (text : List Char) :
    Prop :=
  ∀ front back, text = front ++ (mark ++ back) → depthAfter count depth front ≠ 0

/-- The mark does not stand bare at the start of the text, nor in the rest. -/
theorem sheltered_cons {depth : Nat} {c : Char} {rest : List Char} :
    Sheltered count mark depth (c :: rest) ↔
      (depth = 0 → ¬ mark <+: c :: rest) ∧ Sheltered count mark (count depth c) rest := by
  constructor
  · intro sheltered
    refine ⟨fun zero begins => ?_, fun front back split => ?_⟩
    · obtain ⟨back, split⟩ := begins
      exact sheltered [] back split.symm zero
    · exact sheltered (c :: front) back (by rw [split]; rfl)
  · rintro ⟨first, later⟩ front back split
    -- The mark stands at the start, or somewhere in the rest.
    cases front with
    | nil => exact fun zero => first zero ⟨back, split.symm⟩
    | cons x front =>
      obtain ⟨rfl, tail⟩ := List.cons.inj split
      exact later front back tail

/-- A text that lacks a character of the mark does not have the mark. -/
theorem sheltered_of_not_mem {c : Char} (part : c ∈ mark) {text : List Char} (plain : c ∉ text)
    (depth : Nat) : Sheltered count mark depth text := by
  rintro front back rfl
  simp [part] at plain

end

/-- Every `::` of the text stands in brackets, if the text is read from bracket depth `depth` on. -/
abbrev Uncut (depth : Nat) (text : List Char) : Prop :=
  Sheltered nesting [':', ':'] depth text

/-- The first two characters are no separator, and none is in the rest. -/
theorem uncut_cons {depth : Nat} {c : Char} {rest : List Char} :
    Uncut depth (c :: rest) ↔
      (∀ back, depth = 0 → c = ':' → rest = ':' :: back → False) ∧
        Uncut (nesting depth c) rest := by
  rw [Uncut, sheltered_cons]
  refine and_congr_left' ⟨fun bare back zero colon split => ?_, fun apart zero begins => ?_⟩
  · exact bare zero ⟨back, by rw [colon, split]; rfl⟩
  · obtain ⟨back, split⟩ := begins
    obtain ⟨rfl, second⟩ := List.cons.inj split
    exact apart back zero rfl second.symm

/-- A separator can follow the text: its brackets are closed, and it does not end in a colon, which
    would be taken for the first one of the separator. -/
structure Closed (text : List Char) : Prop where
  /-- No bracket is open. -/
  depth : depthAfter nesting 0 text = 0
  /-- No colon runs into the separator. -/
  colon : text.getLast? ≠ some ':'

/-- The texts can be joined by separators and be told apart again. -/
structure Separable (texts : List (List Char)) : Prop where
  /-- No text is cut itself. -/
  uncut : ∀ text ∈ texts, Uncut 0 text
  /-- Each text that another follows is closed. -/
  closed : texts.Pairwise fun text _ => Closed text

/-- Some of the texts, in the same order, can be told apart as well. -/
theorem Separable.sublist {texts kept : List (List Char)} (separable : Separable texts)
    (sublist : kept.Sublist texts) : Separable kept where
  uncut text member := separable.uncut text (sublist.subset member)
  closed := separable.closed.sublist sublist

/-! ### Cutting what was joined -/

/-- There is a piece even in the empty text. -/
theorem pieces_ne_nil (depth : Nat) (text : List Char) : pieces depth text ≠ [] := by
  fun_cases pieces depth text with
  | case1 => simp
  | case2 rest => simp
  | case3 depth c rest inside =>
    cases pieces (nesting depth c) rest with
    | nil => simp [extendFirst]
    | cons first more => simp [extendFirst]

/-- An uncut text is one piece. -/
theorem pieces_of_uncut {depth : Nat} {text : List Char} (uncut : Uncut depth text) :
    pieces depth text = [text] := by
  induction text generalizing depth with
  | nil => rw [pieces]
  | cons c rest ih =>
    obtain ⟨first, later⟩ := uncut_cons.mp uncut
    rw [pieces.eq_3 depth c rest first, ih later]
    rfl

/-- A separator after a closed text ends its last piece. -/
theorem pieces_append_separator {depth : Nat} {text : List Char}
    (closes : depthAfter nesting depth text = 0) (colon : text.getLast? ≠ some ':')
    (rest : List Char) :
    pieces depth (text ++ ':' :: ':' :: rest) = pieces depth text ++ pieces 0 rest := by
  -- Along the cuts: a colon at the end of the text is the only one that could pair with the
  -- separator.
  fun_induction pieces depth text with
  | case1 depth =>
    obtain rfl : depth = 0 := closes
    rw [List.nil_append, pieces]
    rfl
  | case2 text ih =>
    have last : text.getLast? ≠ some ':' := by
      intro ends
      apply colon
      rw [List.getLast?_cons, List.getLast?_cons, ends]
      rfl
    rw [List.cons_append, List.cons_append, pieces, ih closes last]
    rfl
  | case3 depth c text inside ih =>
    -- No new separator arises where the two texts meet.
    have still : ∀ back, depth = 0 → c = ':' → text ++ ':' :: ':' :: rest = ':' :: back →
        False := by
      intro back zero isColon split
      cases text with
      | nil => exact colon (by rw [isColon]; rfl)
      | cons d text =>
        obtain ⟨rfl, -⟩ := List.cons.inj split
        exact inside text zero isColon rfl
    have last : text.getLast? ≠ some ':' := by
      intro ends
      apply colon
      rw [List.getLast?_cons, ends]
      rfl
    rw [List.cons_append, pieces.eq_3 depth c _ still, ih closes last]
    cases parts : pieces (nesting depth c) text with
    | nil => exact absurd parts (pieces_ne_nil _ _)
    | cons first more => rfl

/-- **Texts that were joined are cut apart where they were joined.** -/
theorem pieces_join {texts : List (List Char)} (separable : Separable texts)
    (present : texts ≠ []) :
    pieces 0 ([':', ':'].intercalate texts) = texts := by
  induction texts with
  | nil => exact absurd rfl present
  | cons text rest ih =>
    obtain ⟨uncut, others⟩ := List.forall_mem_cons.mp separable.uncut
    obtain ⟨closed, later⟩ := List.pairwise_cons.mp separable.closed
    -- Only texts that another one follows have to be closed.
    cases rest with
    | nil => rw [List.intercalate_singleton, pieces_of_uncut uncut]
    | cons next rest =>
      have closes := closed next List.mem_cons_self
      rw [List.intercalate_cons_cons, List.append_assoc, List.cons_append, List.cons_append,
        List.nil_append, pieces_append_separator closes.depth closes.colon, pieces_of_uncut uncut,
        ih ⟨others, later⟩ (List.cons_ne_nil next rest)]
      rfl

/-! ### Joining what was cut -/

/-- Nothing is lost by cutting. -/
theorem join_pieces (depth : Nat) (text : List Char) :
    [':', ':'].intercalate (pieces depth text) = text := by
  -- Along the cuts: each one takes out a separator, and the join puts it back.
  fun_induction pieces depth text with
  | case1 => rw [List.intercalate_singleton]
  | case2 rest ih =>
    rw [List.intercalate_cons_of_ne_nil (pieces_ne_nil 0 rest), ih]
    rfl
  | case3 depth c rest inside ih =>
    cases parts : pieces (nesting depth c) rest with
    | nil => exact absurd parts (pieces_ne_nil _ _)
    | cons first more =>
      rw [parts] at ih
      cases more with
      | nil =>
        rw [List.intercalate_singleton] at ih
        rw [ih, extendFirst, List.intercalate_singleton]
      | cons next more =>
        rw [List.intercalate_cons_cons] at ih
        rw [extendFirst, List.intercalate_cons_cons, ← ih]
        rfl

/-- What cutting gives, from any depth on.  The first piece starts at that depth, all others at
    depth zero. -/
theorem pieces_spec {depth : Nat} {text first : List Char} {rest : List (List Char)}
    (cut : pieces depth text = first :: rest) :
    Uncut depth first ∧ Separable rest ∧
      (rest ≠ [] → depthAfter nesting depth first = 0 ∧ first.getLast? ≠ some ':') := by
  fun_induction pieces depth text generalizing first rest with
  | case1 depth =>
    cases cut
    exact ⟨sheltered_of_not_mem List.mem_cons_self List.not_mem_nil depth, ⟨by simp, .nil⟩, by simp⟩
  | case2 text ih =>
    cases cut
    refine ⟨sheltered_of_not_mem List.mem_cons_self List.not_mem_nil 0, ?_, by simp⟩
    -- the piece after the separator starts at depth zero, as the ones after it do
    cases parts : pieces 0 text with
    | nil => exact ⟨by simp, .nil⟩
    | cons next more =>
      obtain ⟨uncut, separable, closes⟩ := ih parts
      refine ⟨List.forall_mem_cons.mpr ⟨uncut, separable.uncut⟩,
        List.pairwise_cons.mpr ⟨fun later member => ?_, separable.closed⟩⟩
      obtain ⟨zero, colon⟩ := closes (List.ne_nil_of_mem member)
      exact ⟨zero, colon⟩
  | case3 depth c text inside ih =>
    have whole := join_pieces (nesting depth c) text
    cases parts : pieces (nesting depth c) text with
    | nil => exact absurd parts (pieces_ne_nil _ _)
    | cons piece more =>
      rw [parts] at cut whole
      cases cut
      obtain ⟨uncut, separable, closes⟩ := ih parts
      refine ⟨uncut_cons.mpr ⟨fun back zero colon split => ?_, uncut⟩, separable, fun follows => ?_⟩
      · -- a second colon in this piece would be one in the text
        subst split
        cases rest with
        | nil => exact inside back zero colon (by rw [← whole, List.intercalate_singleton])
        | cons next rest =>
          rw [List.intercalate_cons_cons] at whole
          exact inside _ zero colon whole.symm
      · obtain ⟨zero, last⟩ := closes follows
        refine ⟨zero, fun ends => ?_⟩
        cases piece with
        | nil =>
          -- the colon stands right before a separator, and is itself the start of one
          obtain ⟨next, more, rfl⟩ := List.exists_cons_of_ne_nil follows
          obtain rfl : c = ':' := Option.some.inj ends
          rw [List.intercalate_cons_cons] at whole
          exact inside _ (by simpa [nesting] using zero) rfl whole.symm
        | cons d piece =>
          rw [List.getLast?_cons_cons] at ends
          exact last ends

/-- **What comes out can be joined and be told apart again.** -/
theorem separable_pieces (text : List Char) : Separable (pieces 0 text) := by
  cases parts : pieces 0 text with
  | nil => exact absurd parts (pieces_ne_nil 0 text)
  | cons first rest =>
    obtain ⟨uncut, separable, closes⟩ := pieces_spec parts
    refine ⟨List.forall_mem_cons.mpr ⟨uncut, separable.uncut⟩,
      List.pairwise_cons.mpr ⟨fun later member => ?_, separable.closed⟩⟩
    obtain ⟨zero, colon⟩ := closes (List.ne_nil_of_mem member)
    exact ⟨zero, colon⟩

/-! ### Names -/

/-- `components` are what stands in `name` between the separators outside brackets, empty texts
    included. -/
structure Cuts (name : String) (components : List String) : Prop where
  /-- The separators and the components make up the name. -/
  join : String.intercalate "::" components = name
  /-- A name without separators is its own component. -/
  present : components ≠ []
  /-- The components can be told apart. -/
  separable : Separable (components.map String.toList)

/-- The components of a name are its pieces. -/
theorem cuts_iff {name : String} {components : List String} :
    Cuts name components ↔ components.map String.toList = pieces 0 name.toList := by
  constructor
  · rintro ⟨rfl, present, separable⟩
    rw [String.toList_intercalate]
    exact (pieces_join separable (by simpa using present)).symm
  · intro parts
    refine ⟨?_, ?_, parts ▸ separable_pieces name.toList⟩
    · rw [← String.toList_inj, String.toList_intercalate, parts]
      exact join_pieces 0 name.toList
    · rintro rfl
      exact pieces_ne_nil 0 name.toList parts.symm

/-- The parts of a name are its components that are not empty. -/
theorem Cuts.splitQualified {name : String} {components : List String}
    (cuts : Cuts name components) :
    ItaniumRtti.splitQualified name = components.filter (· ≠ "") := by
  unfold ItaniumRtti.splitQualified
  rw [← cuts_iff.mp cuts, List.filter_map, List.map_map]
  have same : (fun piece : List Char => !piece.isEmpty) ∘ String.toList =
      fun component : String => decide (component ≠ "") := by
    funext component
    rw [Bool.eq_iff_iff]
    simp
  rw [same]
  simp [Function.comp_def]

/-- The parts of a closed name, and then those of what follows the next separator. -/
theorem splitQualified_append {name : String} (closed : Closed name.toList) (rest : String) :
    splitQualified (name ++ "::" ++ rest) = splitQualified name ++ splitQualified rest := by
  have cut : pieces 0 (name ++ "::" ++ rest).toList =
      pieces 0 name.toList ++ pieces 0 rest.toList := by
    rw [String.toList_append, String.toList_append, List.append_assoc]
    exact pieces_append_separator closed.depth closed.colon rest.toList
  unfold splitQualified
  rw [cut, List.filter_append, List.map_append]

/-- A text without separators outside brackets is one part. -/
theorem splitQualified_of_uncut {name : String} (uncut : Uncut 0 name.toList)
    (filled : name ≠ "") : splitQualified name = [name] := by
  unfold splitQualified
  rw [pieces_of_uncut uncut]
  simp [filled]

/-- Every name has components. -/
theorem exists_cuts (name : String) : ∃ components, Cuts name components := by
  refine ⟨(pieces 0 name.toList).map String.ofList, cuts_iff.mpr ?_⟩
  simp [Function.comp_def]

/-- There is only one way to cut a name. -/
theorem Cuts.unique {name : String} {first second : List String} (one : Cuts name first)
    (other : Cuts name second) : first = second := by
  have same := (cuts_iff.mp one).trans (cuts_iff.mp other).symm
  exact List.map_injective_iff.mpr (fun _ _ => String.toList_inj.mp) same

/-- The parts of a name are the parts of their own join. -/
theorem splitQualified_join (name : String) :
    splitQualified (String.intercalate "::" (splitQualified name)) = splitQualified name := by
  obtain ⟨components, cuts⟩ := exists_cuts name
  rw [cuts.splitQualified]
  cases kept : components.filter (· ≠ "") with
  | nil => rfl
  | cons part parts =>
    -- leaving components out leaves the others separable, so they are the components of their join
    have again : Cuts (String.intercalate "::" (part :: parts)) (part :: parts) := by
      refine ⟨rfl, List.cons_ne_nil part parts, ?_⟩
      rw [← kept]
      exact cuts.separable.sublist (List.filter_sublist.map String.toList)
    rw [again.splitQualified, ← kept, List.filter_filter]
    simp

/-- A display form gives a class the normal form of that text as its name. -/
theorem uniqueName_of_className {demangle : Demangler} {typeName text : String}
    (display : className? demangle typeName = some text) (filled : text ≠ "") :
    uniqueName demangle typeName = String.intercalate "::" (splitQualified text) := by
  unfold uniqueName
  rw [display, Option.filter_some, if_pos (decide_eq_true filled)]

/-- **Qualified names have a normal form.**  No part of a name is empty, and the parts are the parts
    of their own join, so that the name made of a class's display form does not change when it is
    split and joined once more.  A name has exactly one list of components between its separators;
    the parts are those that are not empty, and if none is empty, joining the parts gives the name
    back. -/
theorem splitQualified_normal (name : String) :
    (∀ part ∈ splitQualified name, part ≠ "") ∧
    splitQualified (String.intercalate "::" (splitQualified name)) = splitQualified name ∧
    (∀ demangle typeName, className? demangle typeName = some name → name ≠ "" →
      uniqueName demangle typeName = String.intercalate "::" (splitQualified name) ∧
      String.intercalate "::" (splitQualified (uniqueName demangle typeName)) =
        uniqueName demangle typeName) ∧
    ∃ components, Cuts name components ∧ (∀ others, Cuts name others → others = components) ∧
      splitQualified name = components.filter (· ≠ "") ∧
      ((∀ component ∈ components, component ≠ "") →
        String.intercalate "::" (splitQualified name) = name) := by
  -- The components are what is cut, before the empty ones are left out.
  obtain ⟨components, cuts⟩ := exists_cuts name
  refine ⟨?_, splitQualified_join name, ?_, components, cuts, ?_, cuts.splitQualified, ?_⟩
  · intro part member
    rw [cuts.splitQualified, List.mem_filter] at member
    exact of_decide_eq_true member.2
  · intro demangle typeName display filled
    have made := uniqueName_of_className display filled
    refine ⟨made, ?_⟩
    rw [made, splitQualified_join]
  · intro others also
    exact also.unique cuts
  · intro filled
    have all : components.filter (· ≠ "") = components := by
      apply List.filter_eq_self.mpr
      intro component member
      exact decide_eq_true (filled component member)
    rw [cuts.splitQualified, all, cuts.join]

/-- A display form with three colons in a row, of which the last belongs to the second component. -/
def Demangler.sampleColons : Demangler
  | "_ZTI1b" => some "typeinfo for a:::b<x::y>"
  | _ => none

/-- The name is cut at the first two colons, and not in brackets. -/
theorem splitQualified_normal_sample :
    splitQualified "a:::b<x::y>" = ["a", ":b<x::y>"] ∧
    uniqueName .sampleColons "1b" = "a:::b<x::y>" ∧
    String.intercalate "::" (splitQualified (uniqueName .sampleColons "1b")) =
      uniqueName .sampleColons "1b" := by
  obtain ⟨-, -, names, components, -, only, parts, back⟩ := splitQualified_normal "a:::b<x::y>"
  have cuts : Cuts "a:::b<x::y>" ["a", ":b<x::y>"] := cuts_iff.mpr (by decide +kernel)
  obtain rfl := only _ cuts
  obtain ⟨made, again⟩ := names .sampleColons "1b" (by decide +kernel) (by decide)
  refine ⟨parts.trans (by decide +kernel), ?_, again⟩
  rw [made, back (by decide)]

end ItaniumRtti
