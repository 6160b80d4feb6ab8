import ItaniumRtti.Image.Marks
import ItaniumRtti.Proofs.Block
import ItaniumRtti.Proofs.Occurrences
import Mathlib.Data.List.Pairwise

namespace ItaniumRtti

/-!
# The store of string marks

Marks are made one at a time, at any addresses.  A new mark is compared with the marks on both
sides only, so that no two marks overlap rests on what held of the marks before.

* `Image.HoldsString` — a text without NUL stands at an address, and its NUL after it;
* `Image.stringAt?_eq_some_iff` — the string at an address is the text up to the first NUL;
* `Marks.place?_eq` — a mark has its place if it overlaps neither neighbour;
* `Image.Marked` — the invariant: marks are strings of the image, each ends before the next begins;
* `Image.Marked.markString` — what one call does;
* `Image.Marked.markString_again` — a later call at the same address gives the same;
* `MarkIndex` — the marks as a table with a sorted list of its keys, searched by bisection;
* `Image.markStrings_store` — what any run of calls does.
-/

/-! ### Strings -/

/-- The block holds `length` bytes that are no NUL from `address` on, and then a NUL. -/
structure Block.HoldsString (b : Block) (address : Int) (length : Nat) : Prop where
  /-- The text. -/
  text : ∀ i < length, ∃ c, b.data.data[(address - b.start).toNat + i]? = some c ∧ c ≠ 0
  /-- The closing NUL. -/
  close : b.data.data[(address - b.start).toNat + length]? = some 0

/-- A text of `length` bytes without NUL stands at `address` in the contents of its block, and a
    NUL closes it in time. -/
def Image.HoldsString (img : Image) (address : Int) (length : Nat) : Prop :=
  length < maxStringLength ∧ ∃ b, img.blockAt? address = some b ∧ b.HoldsString address length

/-- A block with a string in it has contents. -/
theorem Block.HoldsString.initialized {b : Block} {address : Int} {length : Nat}
    (holds : b.HoldsString address length) : b.initialized = true := by
  obtain ⟨inside, -⟩ := Array.getElem?_eq_some_iff.mp holds.close
  have positive : 0 < b.data.size := Nat.lt_of_le_of_lt (Nat.zero_le _) inside
  exact decide_eq_true positive

/-- The first NUL of a window closes the text before it. -/
theorem Block.indexOf?_iff {b : Block} {address : Int} {close limit : Nat} :
    indexOf? b.data [0] (address - b.start).toNat
        (min b.data.size ((address - b.start).toNat + limit)) = some close ↔
      ∃ length < limit, close = (address - b.start).toNat + length ∧
        b.HoldsString address length := by
  rw [indexOf?_eq_some_iff, matchesAt_singleton, List.length_singleton]
  constructor
  · rintro ⟨closes, ⟨lower, upper⟩, before⟩
    refine ⟨close - (address - b.start).toNat, by omega, by omega, fun i small => ?_, ?_⟩
    · -- a byte before the first NUL is there, and is none
      have inside : (address - b.start).toNat + i < b.data.data.size := by
        have size : b.data.size = b.data.data.size := rfl
        omega
      refine ⟨_, Array.getElem?_eq_getElem inside, fun zero => ?_⟩
      have early := before ((address - b.start).toNat + i) (by omega) (by omega)
      rw [Bool.eq_false_iff, Ne, matchesAt_singleton, Array.getElem?_eq_getElem inside,
        zero] at early
      exact early rfl
    · rwa [Nat.add_sub_cancel' lower]
  · rintro ⟨length, small, rfl, holds⟩
    obtain ⟨inside, -⟩ := Array.getElem?_eq_some_iff.mp holds.close
    have size : b.data.size = b.data.data.size := rfl
    refine ⟨holds.close, ⟨by omega, by omega⟩, fun j lower upper => ?_⟩
    obtain ⟨c, here, nonzero⟩ := holds.text (j - (address - b.start).toNat) (by omega)
    rw [Nat.add_sub_cancel' lower] at here
    rw [Bool.eq_false_iff, Ne, matchesAt_singleton, here]
    exact fun zero => nonzero (Option.some.inj zero)

namespace Image

variable {img : Image}

/-- The string at an address is the text up to the first NUL, which closes it in time. -/
theorem stringAt?_eq_some_iff {address : Int} {m : Mark} :
    img.stringAt? address = some m ↔
      ∃ b length, length < maxStringLength ∧ img.blockAt? address = some b ∧
        b.HoldsString address length ∧
        m = { address, length := length + 1,
              text := decodeUtf8 (bytesAt b.data (address - b.start).toNat length) } := by
  rw [stringAt?]
  cases found : img.blockAt? address with
  | none => simp
  | some b =>
    dsimp only
    constructor
    · intro string
      -- Blocks without contents have no strings.
      split at string
      · cases string
      · obtain ⟨close, first, rfl⟩ := Option.map_eq_some_iff.mp string
        obtain ⟨length, small, rfl, holds⟩ := Block.indexOf?_iff.mp first
        refine ⟨b, length, small, rfl, holds, ?_⟩
        rw [Nat.add_sub_cancel_left]
    · rintro ⟨_, length, small, ⟨⟩, holds, rfl⟩
      have first := Block.indexOf?_iff.mpr ⟨length, small, rfl, holds⟩
      rw [if_neg (by simp [holds.initialized]), first, Option.map_some, Nat.add_sub_cancel_left]

theorem address_of_stringAt? {address : Int} {m : Mark}
    (string : img.stringAt? address = some m) : m.address = address := by
  obtain ⟨b, length, -, -, -, rfl⟩ := stringAt?_eq_some_iff.mp string
  rfl

/-- The bytes of a string and its length, the closing NUL included. -/
theorem holdsString_of_stringAt? {address : Int} {m : Mark}
    (string : img.stringAt? address = some m) :
    ∃ length, m.length = length + 1 ∧ img.HoldsString address length := by
  obtain ⟨b, length, small, found, holds, rfl⟩ := stringAt?_eq_some_iff.mp string
  exact ⟨length, rfl, small, b, found, holds⟩

/-- A text that is closed in time is a string. -/
theorem stringAt?_of_holdsString {address : Int} {length : Nat}
    (holds : img.HoldsString address length) :
    ∃ m, img.stringAt? address = some m ∧ m.length = length + 1 := by
  obtain ⟨small, b, found, string⟩ := holds
  exact ⟨_, stringAt?_eq_some_iff.mpr ⟨b, length, small, found, string, rfl⟩, rfl⟩

/-- A string ends after its text and its NUL. -/
theorem stop_eq {address : Int} {m : Mark} {length : Nat}
    (string : img.stringAt? address = some m) (is : m.length = length + 1) :
    m.stop = address + length + 1 := by
  rw [Mark.stop, address_of_stringAt? string, is]
  omega

/-- A string covers at least its NUL. -/
theorem stop_of_stringAt? {address : Int} {m : Mark} (string : img.stringAt? address = some m) :
    address < m.stop := by
  obtain ⟨length, is, -⟩ := holdsString_of_stringAt? string
  rw [stop_eq string is]
  omega

end Image

/-! ### Places -/

namespace Marks

variable {marks more : Marks} {m : Mark} {address : Int}

theorem address_of_at? (found : marks.at? address = some m) : m.address = address := by
  have starts := List.find?_some found
  exact beq_iff_eq.mp starts

theorem mem_of_at? (found : marks.at? address = some m) : m ∈ marks :=
  List.mem_of_find?_eq_some found

theorem at?_eq_none_iff : marks.at? address = none ↔ ∀ x ∈ marks, x.address ≠ address := by
  rw [at?, List.find?_eq_none]
  simp only [beq_iff_eq, ne_eq]

theorem mem_starts_iff : address ∈ marks.map (·.address) ↔ (marks.at? address).isSome = true := by
  rw [at?, List.find?_isSome, List.mem_map]
  simp only [beq_iff_eq]

/-- A mark that overlaps no other finds its place, and the other marks stay. -/
theorem place?_of_apart (apart : ∀ x ∈ marks, x.stop ≤ m.address ∨ m.stop ≤ x.address) :
    ∃ more, place? m marks = some more ∧ ∀ x, x ∈ more ↔ x = m ∨ x ∈ marks := by
  induction marks with
  | nil => exact ⟨[m], rfl, fun x => by rw [List.mem_singleton, or_iff_left List.not_mem_nil]⟩
  | cons y rest ih =>
    obtain ⟨here, later⟩ := List.forall_mem_cons.mp apart
    obtain ⟨more, placed, members⟩ := ih later
    by_cases before : y.stop ≤ m.address
    · refine ⟨y :: more, ?_, fun x => ?_⟩
      · rw [place?, if_pos before, placed]
        rfl
      · rw [List.mem_cons, members, List.mem_cons, or_left_comm]
    · refine ⟨m :: y :: rest, ?_, fun x => List.mem_cons⟩
      rw [place?, if_neg before, if_pos (here.resolve_left before)]

/-- Each mark ends before the next begins, and none is empty. -/
structure Ordered (marks : Marks) : Prop where
  /-- No mark begins before the one before it has ended. -/
  apart : marks.Pairwise fun x y => x.stop ≤ y.address
  /-- A mark covers at least its own address. -/
  positive : ∀ x ∈ marks, x.address < x.stop

theorem Ordered.tail {x : Mark} (ordered : Ordered (x :: marks)) : Ordered marks :=
  ⟨ordered.apart.of_cons, fun y member => ordered.positive y (List.mem_cons_of_mem x member)⟩

/-- The addresses of marks increase. -/
theorem Ordered.starts (ordered : marks.Ordered) :
    (marks.map (·.address)).Pairwise (· < ·) := by
  rw [List.pairwise_map]
  refine ordered.apart.imp_of_mem fun {x y} member _ before => ?_
  have positive := ordered.positive x member
  omega

/-- Two marks of the store are the same or do not overlap. -/
theorem Ordered.apart_of_mem (ordered : marks.Ordered) {x y : Mark} (first : x ∈ marks)
    (second : y ∈ marks) : x = y ∨ x.stop ≤ y.address ∨ y.stop ≤ x.address := by
  have symmetric : Std.Symm fun x y : Mark =>
      x = y ∨ x.stop ≤ y.address ∨ y.stop ≤ x.address := by
    constructor
    rintro x y (same | before | after)
    · exact .inl same.symm
    · exact .inr (.inr before)
    · exact .inr (.inl after)
  have each := ordered.apart.imp fun {x y} before =>
    (.inr (.inl before) : x = y ∨ x.stop ≤ y.address ∨ y.stop ≤ x.address)
  exact each.forall_of_forall (fun x _ => .inl rfl) first second

/-- The mark at the address of a mark of the store is that mark. -/
theorem Ordered.at?_of_mem (ordered : marks.Ordered) (member : m ∈ marks) :
    marks.at? m.address = some m := by
  cases found : marks.at? m.address with
  | none => exact absurd rfl (at?_eq_none_iff.mp found m member)
  | some x =>
    have starts := address_of_at? found
    have positive := ordered.positive x (mem_of_at? found)
    have positive' := ordered.positive m member
    rcases ordered.apart_of_mem (mem_of_at? found) member with same | before | after
    · rw [same]
    · omega
    · omega

/-- The marks that begin before `m`. -/
def before (m : Mark) (marks : Marks) : Marks :=
  marks.takeWhile (·.address < m.address)

/-- The marks from the first on that does not begin before `m`. -/
def after (m : Mark) (marks : Marks) : Marks :=
  marks.dropWhile (·.address < m.address)

/-- `m` begins when the last mark before it has ended, and ends when the next one begins. -/
def fits (m : Mark) (marks : Marks) : Bool :=
  (before m marks).getLast?.all (·.stop ≤ m.address) &&
    (after m marks).head?.all (m.stop ≤ ·.address)

/-- A new mark between its neighbours is found at its address, and the others as before. -/
theorem at?_insert (new : ∀ x ∈ marks, x.address ≠ m.address) :
    at? (before m marks ++ m :: after m marks) address =
      if m.address = address then some m else marks.at? address := by
  have whole : before m marks ++ after m marks = marks := List.takeWhile_append_dropWhile
  rw [at?, List.find?_append, List.find?_cons]
  -- No mark before the new one begins at the same address, so it is not hidden.
  by_cases here : m.address = address
  · have none : (before m marks).find? (·.address == address) = none := by
      refine List.find?_eq_none.mpr fun x member same => ?_
      refine new x ((List.takeWhile_prefix _).subset member) ?_
      rw [here, beq_iff_eq.mp same]
    simp [none, here]
  · have other : (m.address == address) = false := beq_eq_false_iff_ne.mpr here
    rw [other, if_neg here, at?]
    show ((before m marks).find? _).or ((after m marks).find? _) = _
    rw [← List.find?_append, whole]

/-- Whether a mark has a place depends on its two neighbours alone. -/
theorem place?_eq (ordered : marks.Ordered) (new : ∀ x ∈ marks, x.address ≠ m.address)
    (positive : m.address < m.stop) :
    place? m marks =
      if fits m marks then some (before m marks ++ m :: after m marks) else none := by
  induction marks with
  | nil => rfl
  | cons x rest ih =>
    obtain ⟨here, later⟩ := List.forall_mem_cons.mp new
    have covers := ordered.positive x List.mem_cons_self
    rw [place?]
    by_cases begins : x.address < m.address
    · -- `x` begins before `m`: it is the left neighbour unless the next mark begins before `m` too
      have low : before m (x :: rest) = x :: before m rest := by simp [before, begins]
      have high : after m (x :: rest) = after m rest := by simp [after, begins]
      by_cases ends : x.stop ≤ m.address
      · have same : fits m (x :: rest) = fits m rest := by
          rw [fits, fits, low, high]
          cases first : before m rest with
          | nil => simp [ends]
          | cons y more => rw [List.getLast?_cons_cons]
        rw [if_pos ends, ih ordered.tail later, same, low, high]
        split
        · rfl
        · rfl
      · -- the next mark begins after the end of `x`, which is after the begin of `m`
        have none : before m rest = [] := by
          cases rest with
          | nil => rfl
          | cons y more =>
            have next := (List.pairwise_cons.mp ordered.apart).1 y List.mem_cons_self
            have late : ¬ y.address < m.address := by omega
            simp [before, late]
        have clash : fits m (x :: rest) = false := by
          rw [fits, low, none]
          simp [ends]
        rw [if_neg ends, if_neg (by omega), clash]
        rfl
    · -- `x` begins after `m` and is the right neighbour
      have low : before m (x :: rest) = [] := by simp [before, begins]
      have high : after m (x :: rest) = x :: rest := by simp [after, begins]
      have only : fits m (x :: rest) = decide (m.stop ≤ x.address) := by
        rw [fits, low, high]
        simp
      rw [if_neg (by omega), only, low, high]
      by_cases ends : m.stop ≤ x.address
      · simp [ends]
      · simp [ends]

/-- A mark that finds its place overlaps no mark, and nothing else changes. -/
theorem of_place? (ordered : marks.Ordered) (positive : m.address < m.stop)
    (placed : place? m marks = some more) :
    more.Ordered ∧ marks.Sublist more ∧ m ∈ more ∧
      ∀ x ∈ marks, x.stop ≤ m.address ∨ m.stop ≤ x.address := by
  induction marks generalizing more with
  | nil =>
    cases placed
    exact ⟨⟨List.pairwise_singleton _ m, List.forall_mem_singleton.mpr positive⟩,
      List.nil_sublist _, List.mem_singleton_self m, List.forall_mem_nil _⟩
  | cons x rest ih =>
    have covers := ordered.positive x List.mem_cons_self
    obtain ⟨next, -⟩ := List.pairwise_cons.mp ordered.apart
    rw [place?] at placed
    split at placed
    · next ends =>
      obtain ⟨tail, found, rfl⟩ := Option.map_eq_some_iff.mp placed
      obtain ⟨still, inside, member, apart⟩ := ih ordered.tail found
      obtain ⟨again, same, members⟩ := place?_of_apart apart
      cases same.symm.trans found
      refine ⟨⟨List.pairwise_cons.mpr ⟨fun y listed => ?_, still.apart⟩,
        List.forall_mem_cons.mpr ⟨covers, still.positive⟩⟩, inside.cons_cons x,
        List.mem_cons_of_mem x member, List.forall_mem_cons.mpr ⟨.inl ends, apart⟩⟩
      -- what comes after `x` is `m`, or came after `x` before
      rcases (members y).mp listed with rfl | old
      · exact ends
      · exact next y old
    · next ends =>
      split at placed
      · next begins =>
        cases placed
        have later : ∀ y ∈ x :: rest, m.stop ≤ y.address := by
          refine List.forall_mem_cons.mpr ⟨begins, fun y listed => ?_⟩
          have := next y listed
          omega
        exact ⟨⟨List.pairwise_cons.mpr ⟨later, ordered.apart⟩,
          List.forall_mem_cons.mpr ⟨positive, ordered.positive⟩⟩, List.sublist_cons_self m _,
          List.mem_cons_self, fun y listed => .inr (later y listed)⟩
      · cases placed

/-- A string from `address` up to `stop` overlaps no mark that starts elsewhere. -/
def Free (marks : Marks) (address stop : Int) : Prop :=
  ∀ x ∈ marks, x.address ≠ address → x.stop ≤ address ∨ stop ≤ x.address

end Marks

/-! ### Calls -/

namespace Image

variable {img : Image} {marks : Marks}

/-- The marks are strings of the image, and each ends before the next begins. -/
structure Marked (img : Image) (marks : Marks) : Prop where
  /-- Each mark is the string at its address. -/
  strings : ∀ m ∈ marks, img.stringAt? m.address = some m
  /-- No two of them overlap. -/
  apart : marks.Pairwise fun x y => x.stop ≤ y.address

theorem marked_nil (img : Image) : img.Marked [] :=
  ⟨List.forall_mem_nil _, .nil⟩

/-- Marks that are strings are in order. -/
theorem Marked.ordered (marked : img.Marked marks) : marks.Ordered :=
  ⟨marked.apart, fun m member => stop_of_stringAt? (marked.strings m member)⟩

/-- The mark at an address is the string there. -/
theorem Marked.stringAt? (marked : img.Marked marks) {address : Int} {m : Mark}
    (found : marks.at? address = some m) : img.stringAt? address = some m :=
  Marks.address_of_at? found ▸ marked.strings m (Marks.mem_of_at? found)

/-- **What one call does.**  It gives the string at the address exactly if that is there and
    overlaps no mark that starts elsewhere; then the mark is in the store.  Otherwise nothing
    changes.  The marks before stay, in order. -/
theorem Marked.markString (marked : img.Marked marks) (address : Int) :
    img.Marked (img.markString marks address).2 ∧
      marks.Sublist (img.markString marks address).2 ∧
      (∀ m, (img.markString marks address).1 = some m ↔
        img.stringAt? address = some m ∧ Marks.Free marks address m.stop) ∧
      (∀ m, (img.markString marks address).1 = some m →
        (img.markString marks address).2.at? address = some m) := by
  rw [Image.markString]
  cases string : img.stringAt? address with
  | none => exact ⟨marked, .refl _, by simp, by simp⟩
  | some s =>
    have starts := address_of_stringAt? string
    subst starts
    have covers := stop_of_stringAt? string
    simp only [Option.some.injEq]
    rw [Marks.add]
    cases found : marks.at? s.address with
    | some old =>
      -- the string is marked already, and its mark overlaps no other
      have same : old = s := Option.some.inj ((marked.stringAt? found).symm.trans string)
      subst same
      have free : Marks.Free marks old.address old.stop := by
        intro x member other
        rcases marked.ordered.apart_of_mem member (Marks.mem_of_at? found) with
          same | before | after
        · exact absurd (congrArg Mark.address same) other
        · exact .inl before
        · exact .inr after
      refine ⟨marked, .refl _, fun m => ?_, fun m given => ?_⟩
      · simp only [if_true, Option.some.injEq]
        refine ⟨?_, And.left⟩
        rintro rfl
        exact ⟨rfl, free⟩
      · simp only [if_true, Option.some.injEq] at given
        exact given ▸ found
    | none =>
      have new := Marks.at?_eq_none_iff.mp found
      dsimp only
      cases placed : Marks.place? s marks with
      | none =>
        refine ⟨marked, .refl _, fun m => ⟨by simp, ?_⟩, by simp⟩
        rintro ⟨rfl, free⟩
        -- a string that is free would have found its place
        obtain ⟨more, fits, -⟩ := Marks.place?_of_apart fun x member => free x member (new x member)
        cases placed.symm.trans fits
      | some more =>
        obtain ⟨still, inside, member, apart⟩ := Marks.of_place? marked.ordered covers placed
        obtain ⟨again, same, members⟩ := Marks.place?_of_apart apart
        cases same.symm.trans placed
        refine ⟨⟨fun x listed => ?_, still.apart⟩, inside, fun m => ?_, fun m given => ?_⟩
        · rcases (members x).mp listed with rfl | old
          · exact string
          · exact marked.strings x old
        · simp only [Option.some.injEq]
          refine ⟨?_, And.left⟩
          rintro rfl
          exact ⟨rfl, fun x old _ => apart x old⟩
        · cases given
          exact still.at?_of_mem member

/-- A string that is marked is given again, and nothing changes. -/
theorem Marked.markString_of_at? (marked : img.Marked marks) {address : Int} {m : Mark}
    (found : marks.at? address = some m) : img.markString marks address = (some m, marks) := by
  have string := marked.stringAt? found
  have starts := address_of_stringAt? string
  rw [Image.markString, string]
  show marks.add m = _
  rw [Marks.add, starts, found]
  simp

/-- **A later call gives the same.**  Once a call at an address gave a result, every call there
    gives it, whatever marks were made in between, and changes nothing. -/
theorem Marked.markString_again (marked : img.Marked marks) {later : Marks}
    (after : img.Marked later) (address : Int)
    (kept : ∀ x ∈ (img.markString marks address).2, x ∈ later) :
    img.markString later address = ((img.markString marks address).1, later) := by
  obtain ⟨-, grows, given, stored⟩ := marked.markString address
  cases first : (img.markString marks address).1 with
  | some m =>
    -- the mark is still in the store, and is found there
    obtain ⟨string, -⟩ := (given m).mp first
    have starts := address_of_stringAt? string
    have found := after.ordered.at?_of_mem (kept m (Marks.mem_of_at? (stored m first)))
    rw [starts] at found
    exact after.markString_of_at? found
  | none =>
    cases string : img.stringAt? address with
    | none => rw [Image.markString, string]
    | some s =>
      -- a mark that was in the way is still in the way
      have blocked : ¬ Marks.Free later address s.stop := by
        intro free
        have clear : Marks.Free marks address s.stop :=
          fun x member other => free x (kept x (grows.subset member)) other
        cases first.symm.trans ((given s).mpr ⟨string, clear⟩)
      obtain ⟨-, -, given', stored'⟩ := after.markString address
      have refused : (img.markString later address).1 = none := by
        rw [Option.eq_none_iff_forall_ne_some]
        intro m gives
        obtain ⟨string', free⟩ := (given' m).mp gives
        cases string.symm.trans string'
        exact blocked free
      refine Prod.ext refused ?_
      rw [Image.markString, string] at refused ⊢
      replace refused : (later.add s).1 = none := refused
      show (later.add s).2 = later
      revert refused
      rw [Marks.add]
      cases later.at? s.address with
      | some old => exact fun _ => rfl
      | none =>
        dsimp only
        cases Marks.place? s later with
        | none => exact fun _ => rfl
        | some more => exact fun gives => by cases gives

end Image

/-! ### Runs of calls -/

/-- The results of calls at some addresses, one after the other, and the state after them. -/
def callEach {β σ : Type} (call : σ → Int → β × σ) : List Int → σ → List β × σ
  | [], state => ([], state)
  | address :: rest, state =>
    let next := call state address
    let later := callEach call rest next.2
    (next.1 :: later.1, later.2)

section Runs

variable {β σ : Type} {call : σ → Int → β × σ}

theorem callEach_append (first second : List Int) (state : σ) :
    callEach call (first ++ second) state =
      ((callEach call first state).1 ++ (callEach call second (callEach call first state).2).1,
        (callEach call second (callEach call first state).2).2) := by
  induction first generalizing state with
  | nil => rfl
  | cons address rest ih =>
    rw [List.cons_append, callEach, ih]
    rfl

theorem length_callEach (calls : List Int) (state : σ) :
    (callEach call calls state).1.length = calls.length := by
  induction calls generalizing state with
  | nil => rfl
  | cons address rest ih =>
    rw [callEach]
    simp [ih]

/-- The result of the call after `before` is that of a call in the state that `before` leaves. -/
theorem getElem?_callEach {calls : List Int} {i : Nat} {address : Int}
    (called : calls[i]? = some address) (state : σ) :
    (callEach call calls state).1[i]? =
      some (call (callEach call (calls.take i) state).2 address).1 := by
  induction calls generalizing i state with
  | nil => cases called
  | cons first rest ih =>
    cases i with
    | zero =>
      cases called
      rfl
    | succ i =>
      rw [List.getElem?_cons_succ] at called
      exact ih called _

end Runs

namespace Image

variable (img : Image)

/-- The marks that calls at some addresses give in a new image. -/
def marksGiven (calls : List Int) : List (Option Mark) :=
  (callEach img.markString calls []).1

/-- The marks that calls at some addresses make in a new image. -/
def marksAfter (calls : List Int) : Marks :=
  (callEach img.markString calls []).2

theorem marksAfter_append (calls more : List Int) :
    img.marksAfter (calls ++ more) = (callEach img.markString more (img.marksAfter calls)).2 := by
  rw [marksAfter, callEach_append]
  rfl

variable {img}

/-- What a run of calls keeps. -/
theorem Marked.callEach {marks : Marks} (marked : img.Marked marks) (calls : List Int) :
    img.Marked (callEach img.markString calls marks).2 ∧
      marks.Sublist (callEach img.markString calls marks).2 := by
  induction calls generalizing marks with
  | nil => exact ⟨marked, .refl marks⟩
  | cons address rest ih =>
    obtain ⟨still, grows, -⟩ := marked.markString address
    obtain ⟨last, more⟩ := ih still
    exact ⟨last, grows.trans more⟩

/-- All marks that calls make are strings that do not overlap. -/
theorem marked_marksAfter (img : Image) (calls : List Int) : img.Marked (img.marksAfter calls) :=
  (img.marked_nil.callEach calls).1

/-- Two calls of a run at one address give the same. -/
theorem getElem?_marksGiven {calls : List Int} {i j : Nat} (earlier : i < j) {address : Int}
    (first : calls[i]? = some address) (second : calls[j]? = some address) :
    (img.marksGiven calls)[i]? = (img.marksGiven calls)[j]? := by
  -- the second call comes after the first one and the calls between
  obtain ⟨between, split⟩ : ∃ between, calls.take j = calls.take i ++ address :: between := by
    obtain ⟨inside, is⟩ := List.getElem?_eq_some_iff.mp first
    refine ⟨(calls.take j).drop (i + 1), ?_⟩
    have whole := (List.take_append_drop (i + 1) (calls.take j)).symm
    rw [List.take_take, Nat.min_eq_left (by omega), List.take_succ_eq_append_getElem inside, is,
      List.append_assoc] at whole
    exact whole
  have marked := marked_marksAfter img (calls.take i)
  obtain ⟨still, -⟩ := marked.markString address
  obtain ⟨last, kept⟩ := still.callEach between
  have state : (callEach img.markString (calls.take j) []).2 =
      (callEach img.markString between
        (img.markString (img.marksAfter (calls.take i)) address).2).2 := by
    rw [split, callEach_append]
    rfl
  rw [marksGiven, getElem?_callEach first, getElem?_callEach second, state,
    marked.markString_again last address kept.subset]
  rfl

end Image

/-! ### Search by bisection -/

/-- Marks as they are searched: a table by address, and the addresses in order. -/
structure MarkIndex where
  /-- The addresses of the marks. -/
  starts : List Int := []
  /-- The mark at each address. -/
  table : Std.TreeMap Int Mark := ∅

namespace MarkIndex

variable (index : MarkIndex)

/-- The addresses to the left of the place of `address`. -/
def below (address : Int) : List Int :=
  index.starts.takeWhile (· < address)

/-- The addresses to the right of the place of `address`. -/
def above (address : Int) : List Int :=
  index.starts.dropWhile (· < address)

/-- Whether one of the two neighbours of the place of `m` overlaps it. -/
def clashes (m : Mark) : Bool :=
  ((index.below m.address).getLast?.bind (index.table[·]?)).any (m.address < ·.stop) ||
    (index.above m.address).head?.any (· < m.stop)

/-- The mark for the string `m`, and the index then: the old mark if one of the same length starts
    there, the new one if it overlaps neither neighbour. -/
def add (m : Mark) : Option Mark × MarkIndex :=
  match index.table[m.address]? with
  | some old => (if old.length = m.length then some old else none, index)
  | none =>
    if index.clashes m then (none, index)
    else (some m,
      { starts := index.below m.address ++ m.address :: index.above m.address,
        table := index.table.insert m.address m })

/-- The mark of the string at `address`, and the index then. -/
def markString (img : Image) (index : MarkIndex) (address : Int) : Option Mark × MarkIndex :=
  match img.stringAt? address with
  | none => (none, index)
  | some m => index.add m

/-- The index lists the marks of a store. -/
structure Lists (marks : Marks) : Prop where
  /-- The addresses are those of the marks, in order. -/
  starts : index.starts = marks.map (·.address)
  /-- The table has the same marks. -/
  table : ∀ address : Int, index.table[address]? = marks.at? address

variable {index} {marks : Marks}

theorem lists_nil : ({} : MarkIndex).Lists [] :=
  ⟨rfl, fun _ => Std.TreeMap.getElem?_emptyc⟩

/-- The neighbours by address are the neighbours among the marks. -/
theorem Lists.clashes (lists : index.Lists marks) (ordered : marks.Ordered) (m : Mark) :
    index.clashes m = !Marks.fits m marks := by
  have low : index.below m.address = (Marks.before m marks).map (·.address) := by
    rw [below, lists.starts, List.takeWhile_map]
    rfl
  have high : index.above m.address = (Marks.after m marks).map (·.address) := by
    rw [above, lists.starts, List.dropWhile_map]
    rfl
  -- The table is asked for the neighbour's mark, which is the one that begins at its address.
  have left : (index.below m.address).getLast?.bind (index.table[·]?) =
      (Marks.before m marks).getLast? := by
    rw [low, List.getLast?_map]
    cases last : (Marks.before m marks).getLast? with
    | none => rfl
    | some x =>
      have member : x ∈ marks := (List.takeWhile_prefix _).subset (List.mem_of_getLast? last)
      show index.table[x.address]? = some x
      rw [lists.table, ordered.at?_of_mem member]
  rw [MarkIndex.clashes, left, high, List.head?_map, Marks.fits, Bool.not_and]
  refine congrArg₂ or ?_ ?_
  · cases (Marks.before m marks).getLast? with
    | none => rfl
    | some x => simp only [Option.any_some, Option.all_some, ← Int.not_lt, decide_not, Bool.not_not]
  · cases (Marks.after m marks).head? with
    | none => rfl
    | some x =>
      simp only [Option.map_some, Option.any_some, Option.all_some, ← Int.not_lt, decide_not,
        Bool.not_not]

/-- Adding a string gives the same with the index. -/
theorem Lists.add (lists : index.Lists marks) (ordered : marks.Ordered) {m : Mark}
    (positive : m.address < m.stop) :
    (index.add m).1 = (marks.add m).1 ∧ (index.add m).2.Lists (marks.add m).2 := by
  rw [MarkIndex.add, Marks.add, lists.table]
  cases found : marks.at? m.address with
  | some old => exact ⟨rfl, lists⟩
  | none =>
    have new := Marks.at?_eq_none_iff.mp found
    dsimp only
    rw [lists.clashes ordered, Marks.place?_eq ordered new positive]
    cases fits : Marks.fits m marks with
    | false => exact ⟨rfl, lists⟩
    | true =>
      -- The mark is put at the same place in both, with the same neighbours.
      rw [if_pos rfl]
      refine ⟨rfl, ?_, fun address => ?_⟩
      · show index.below m.address ++ m.address :: index.above m.address =
          (Marks.before m marks ++ m :: Marks.after m marks).map (·.address)
        rw [below, above, lists.starts, List.takeWhile_map, List.dropWhile_map, List.map_append]
        rfl
      · show (index.table.insert m.address m)[address]? =
          Marks.at? (Marks.before m marks ++ m :: Marks.after m marks) address
        rw [Marks.at?_insert new, Std.TreeMap.getElem?_insert, lists.table]
        simp only [Std.compare_eq_iff_eq]

/-- A call gives the same with the index. -/
theorem Lists.markString {img : Image} (lists : index.Lists marks) (marked : img.Marked marks)
    (address : Int) :
    (MarkIndex.markString img index address).1 = (img.markString marks address).1 ∧
      (MarkIndex.markString img index address).2.Lists (img.markString marks address).2 := by
  rw [MarkIndex.markString, Image.markString]
  cases string : img.stringAt? address with
  | none => exact ⟨rfl, lists⟩
  | some m =>
    have covers : m.address < m.stop := by
      rw [Image.address_of_stringAt? string]
      exact Image.stop_of_stringAt? string
    exact lists.add marked.ordered covers

/-- A run of calls gives the same with either, and the index lists the marks made. -/
theorem Lists.callEach {img : Image} (lists : index.Lists marks) (marked : img.Marked marks)
    (calls : List Int) :
    (callEach (MarkIndex.markString img) calls index).1 =
        (callEach img.markString calls marks).1 ∧
      (callEach (MarkIndex.markString img) calls index).2.Lists
        (callEach img.markString calls marks).2 := by
  -- By induction on the calls, with what both stores have in common as the invariant.
  induction calls generalizing index marks with
  | nil => exact ⟨rfl, lists⟩
  | cons address rest ih =>
    obtain ⟨same, next⟩ := lists.markString marked address
    obtain ⟨still, -⟩ := marked.markString address
    obtain ⟨later, last⟩ := ih next still
    refine ⟨?_, last⟩
    rw [ItaniumRtti.callEach, ItaniumRtti.callEach]
    exact congrArg₂ List.cons same later

end MarkIndex

/-- The index that calls at some addresses leave in a new image. -/
def Image.indexAfter (img : Image) (calls : List Int) : MarkIndex :=
  (callEach (MarkIndex.markString img) calls {}).2

/-- **String marks form a disjoint, stable store.**  After any run of calls: the list of starts
    increases and has the keys of the table, which holds the marks; no two marks overlap, and each
    is a text without NUL and its NUL; no further calls change a mark; a call succeeds exactly if a
    string stands at the address and overlaps no mark that starts elsewhere, and then the mark that
    it gives is in the store.  Calls at one address give the same, and comparing neighbours gives
    the same as comparing all marks. -/
theorem Image.markStrings_store (img : Image) (calls : List Int) :
    (img.indexAfter calls).starts.Pairwise (· < ·) ∧
    (∀ address : Int, address ∈ (img.indexAfter calls).starts ↔
      (img.indexAfter calls).table[address]?.isSome = true) ∧
    (∀ address : Int,
      (img.indexAfter calls).table[address]? = (img.marksAfter calls).at? address) ∧
    (callEach (MarkIndex.markString img) calls {}).1 = img.marksGiven calls ∧
    (img.marksAfter calls).Pairwise (fun x y => x.stop ≤ y.address) ∧
    (∀ m ∈ img.marksAfter calls, ∃ length,
      m.length = length + 1 ∧ img.HoldsString m.address length) ∧
    (∀ more address m, (img.marksAfter calls).at? address = some m →
      (img.marksAfter (calls ++ more)).at? address = some m) ∧
    (∀ address, (img.markString (img.marksAfter calls) address).1.isSome = true ↔
      ∃ length : Nat, img.HoldsString address length ∧
        Marks.Free (img.marksAfter calls) address (address + length + 1)) ∧
    (∀ address m, (img.markString (img.marksAfter calls) address).1 = some m →
      (img.marksAfter (calls ++ [address])).at? address = some m) ∧
    (∀ i j : Nat, calls[i]? = calls[j]? →
      (img.marksGiven calls)[i]? = (img.marksGiven calls)[j]?) := by
  have marked := img.marked_marksAfter calls
  obtain ⟨same, lists⟩ := MarkIndex.lists_nil.callEach img.marked_nil calls
  refine ⟨?sorted, ?keys, lists.table, same, marked.apart, ?strings, ?kept, ?succeeds, ?stored,
    ?alike⟩
  case sorted =>
    show List.Pairwise _ (img.indexAfter calls).starts
    rw [show (img.indexAfter calls).starts = _ from lists.starts]
    exact marked.ordered.starts
  case keys =>
    intro address
    rw [show (img.indexAfter calls).starts = _ from lists.starts,
      show (img.indexAfter calls).table[address]? = _ from lists.table address]
    exact Marks.mem_starts_iff
  case strings =>
    intro m member
    exact holdsString_of_stringAt? (marked.strings m member)
  case kept =>
    intro more address m found
    obtain ⟨last, grows⟩ := marked.callEach more
    have member := grows.subset (Marks.mem_of_at? found)
    rw [marksAfter_append, ← Marks.address_of_at? found]
    exact last.ordered.at?_of_mem member
  case succeeds =>
    intro address
    obtain ⟨-, -, given, -⟩ := marked.markString address
    constructor
    · intro success
      obtain ⟨m, gives⟩ := Option.isSome_iff_exists.mp success
      obtain ⟨string, free⟩ := (given m).mp gives
      obtain ⟨length, is, holds⟩ := holdsString_of_stringAt? string
      exact ⟨length, holds, stop_eq string is ▸ free⟩
    · rintro ⟨length, holds, free⟩
      obtain ⟨m, string, is⟩ := stringAt?_of_holdsString holds
      have gives := (given m).mpr ⟨string, stop_eq string is ▸ free⟩
      rw [gives]
      rfl
  case stored =>
    intro address m gives
    obtain ⟨-, -, -, stored⟩ := marked.markString address
    rw [marksAfter_append]
    exact stored m gives
  case alike =>
    intro i j same
    cases first : calls[i]? with
    | none =>
      -- there is no call at either index
      have none : ∀ k : Nat, calls[k]? = none → (img.marksGiven calls)[k]? = none := by
        intro k beyond
        rw [List.getElem?_eq_none_iff] at beyond ⊢
        rw [marksGiven, length_callEach]
        exact beyond
      rw [none i first, none j (same ▸ first)]
    | some address =>
      have second : calls[j]? = some address := same ▸ first
      rcases Nat.lt_trichotomy i j with earlier | rfl | later
      · exact getElem?_marksGiven earlier first second
      · rfl
      · exact (getElem?_marksGiven later second first).symm

/-- Three strings, of which the second is the end of the first. -/
def Image.sampleStrings : Image :=
  .ofParts .wide .little "x86_64" none
    [{ start := 16, size := 5, data := ⟨#[0x41, 0x42, 0, 0x43, 0]⟩ }] [] []

/-- A string that is part of a marked one cannot be marked, and the marked one is given again. -/
theorem Image.markStrings_store_sample :
    (Image.sampleStrings.marksGiven [16, 17, 19, 16]).map (·.map (·.length)) =
        [some 3, none, some 2, some 3] ∧
      (Image.sampleStrings.marksGiven [16, 17, 19, 16])[0]? =
        (Image.sampleStrings.marksGiven [16, 17, 19, 16])[3]? := by
  obtain ⟨-, -, -, -, -, -, -, -, -, alike⟩ :=
    Image.markStrings_store Image.sampleStrings [16, 17, 19, 16]
  exact ⟨by decide +kernel, alike 0 3 rfl⟩

end ItaniumRtti
