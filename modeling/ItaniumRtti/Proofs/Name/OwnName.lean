import ItaniumRtti.Proofs.Name.Lookup
import ItaniumRtti.Proofs.Utf8

namespace ItaniumRtti

/-!
# Classes and their own names

The name of a class is read through its name field, and a lookup searches the data for it.  The two
agree on the string that is stored, but not on its spelling: of a type that only its own file can
name, the string begins with a mark that reading drops and the search does not know.

* `eq_takeWhile_of_closed` — a text without NUL is what stands before the first NUL;
* `Image.IsNameHit.text_of_string` — the string at a place where a name stands is the name;
* `Image.IsNameHit.unique` — two names that stand at one place are the same;
* `Image.IsNameHit.not_of_marked` — so where a marked string stands, its name does not;
* `Session.found_by_own_name` — a class is found by its own name unless its string is marked.
-/

open Recover

/-! ### Marks of local types -/

/-- A name without the mark is kept as it is. -/
theorem withoutLocalMark_of_plain {stored : String} (plain : hasPrefix "*" stored = false) :
    withoutLocalMark stored = stored := by
  simp [withoutLocalMark, dropPrefix?, plain]

/-- A text with the mark is the mark and what is left without it. -/
theorem toList_of_marked {stored : String} (marked : hasPrefix "*" stored = true) :
    stored.toList = '*' :: (withoutLocalMark stored).toList := by
  have left : withoutLocalMark stored = String.ofList (stored.toList.drop 1) := by
    rw [withoutLocalMark, dropPrefix?, if_pos marked]
    rfl
  obtain ⟨rest, whole⟩ := List.isPrefixOf_iff_prefix.mp marked
  rw [left, String.toList_ofList, ← whole]
  simp

/-! ### Strings and hits -/

/-- A text without NUL is what stands before the first NUL. -/
theorem eq_takeWhile_of_closed {text bytes : List UInt8} (closed : text ++ [0] <+: bytes)
    (plain : (0 : UInt8) ∉ text) : text = bytes.takeWhile (· != 0) := by
  obtain ⟨rest, rfl⟩ := closed
  have letters : ∀ c ∈ text, (c != 0) = true := by
    intro c member
    simp only [bne_iff_ne, ne_eq]
    rintro rfl
    exact plain member
  rw [List.append_assoc, List.takeWhile_append_of_pos letters]
  simp

/-- A string of a block is closed by the NUL after it. -/
theorem Block.HoldsString.closed {b : Block} {address : Int} {length : Nat}
    (holds : b.HoldsString address length) :
    bytesAt b.data (address - b.start).toNat length ++ [0] <+:
        b.data.data.toList.drop (address - b.start).toNat ∧
      (0 : UInt8) ∉ bytesAt b.data (address - b.start).toNat length := by
  have close := holds.close
  have text := holds.text
  rw [bytesAt_eq]
  -- Only the offset in the contents matters.
  generalize (address - b.start).toNat = offset at close text
  simp only [← Array.getElem?_toList] at close text
  constructor
  · have next : (b.data.data.toList.drop offset)[length]? = some 0 := by
      rw [List.getElem?_drop, close]
    have longer := List.take_add_one (l := b.data.data.toList.drop offset) (i := length)
    rw [next] at longer
    exact longer ▸ List.take_prefix _ _
  · intro member
    obtain ⟨i, here⟩ := List.mem_iff_getElem?.mp member
    rw [List.getElem?_take] at here
    split at here
    · next inside =>
      obtain ⟨c, there, nonzero⟩ := text i inside
      rw [List.getElem?_drop, there] at here
      exact nonzero (Option.some.inj here)
    · cases here

namespace Image.IsNameHit

variable {img : Image} {within other : Option AddressRange} {name second : String} {place : Int}

/-- The bytes from the place of a hit on begin with the name and a NUL. -/
theorem closed (tidy : img.Tidy) (hit : img.IsNameHit within name place) :
    ∃ b, img.blockAt? place = some b ∧
      encodeUtf8 name ++ [0] <+: b.data.data.toList.drop (place - b.start).toNat := by
  obtain ⟨b, member, initialized, -, lower, upper, stands, -⟩ := hit
  have start := b.start_le_rangeWithin within
  have stop := b.rangeWithin_le_stop within
  have found : img.blockAt? place = some b :=
    (blockAt?_eq_some_iff tidy).mpr ⟨member, by omega, by omega⟩
  have read := @readBytes?_eq_some_iff img place b found initialized (encodeUtf8 name ++ [0])
    (by simp)
  rw [List.length_append, List.length_singleton] at read
  obtain ⟨-, -, bytes⟩ := read.mp stands
  rw [bytesAt_eq] at bytes
  exact ⟨b, found, bytes ▸ List.take_prefix _ _⟩

/-- **The string at a hit is the name**, if the name has no NUL in it. -/
theorem text_of_string (tidy : img.Tidy) (hit : img.IsNameHit within name place)
    (plain : (0 : UInt8) ∉ encodeUtf8 name) {m : Mark} (string : img.stringAt? place = some m) :
    m.text = name := by
  obtain ⟨b, found, closed⟩ := hit.closed tidy
  obtain ⟨c, length, -, found', holds, rfl⟩ := stringAt?_eq_some_iff.mp string
  cases found.symm.trans found'
  obtain ⟨closed', plain'⟩ := holds.closed
  have bytes : bytesAt b.data (place - b.start).toNat length = encodeUtf8 name :=
    (eq_takeWhile_of_closed closed' plain').trans (eq_takeWhile_of_closed closed plain).symm
  show decodeUtf8 (bytesAt b.data (place - b.start).toNat length) = name
  rw [bytes, decodeUtf8_encodeUtf8]

/-- Only one name without NUL stands at a place. -/
theorem unique (tidy : img.Tidy) (first : img.IsNameHit within name place)
    (again : img.IsNameHit other second place) (plain : (0 : UInt8) ∉ encodeUtf8 name)
    (plain' : (0 : UInt8) ∉ encodeUtf8 second) : name = second := by
  obtain ⟨b, found, closed⟩ := first.closed tidy
  obtain ⟨c, found', closed'⟩ := again.closed tidy
  cases found.symm.trans found'
  have bytes : encodeUtf8 name = encodeUtf8 second :=
    (eq_takeWhile_of_closed closed plain).trans (eq_takeWhile_of_closed closed' plain').symm
  rw [← decodeUtf8_encodeUtf8 name, bytes, decodeUtf8_encodeUtf8]

/-- Where a string with the mark stands, the name without it does not. -/
theorem not_of_marked (tidy : img.Tidy) (hit : img.IsNameHit within name place)
    (plain : (0 : UInt8) ∉ encodeUtf8 name) (marked : hasPrefix "*" name = true) :
    ¬ img.IsNameHit other (withoutLocalMark name) place := by
  intro again
  have whole := toList_of_marked marked
  have bytes : encodeUtf8 name =
      String.utf8EncodeChar '*' ++ encodeUtf8 (withoutLocalMark name) := by
    rw [encodeUtf8_eq, encodeUtf8_eq, whole, List.flatMap_cons]
  have plain' : (0 : UInt8) ∉ encodeUtf8 (withoutLocalMark name) := by
    rw [bytes] at plain
    exact fun member => plain (List.mem_append_right _ member)
  have length := congrArg List.length whole
  rw [← hit.unique tidy again plain plain', List.length_cons] at length
  omega

end Image.IsNameHit

/-- A name that is not empty is that of the string at its place. -/
theorem Image.Marked.of_spelling {img : Image} {marks : Marks} (marked : img.Marked marks)
    {place : Int} (filled : img.spelling marks place ≠ "") :
    ∃ m, img.stringAt? place = some m ∧ img.spelling marks place = withoutLocalMark m.text := by
  unfold spelling at filled ⊢
  cases given : (img.markString marks place).1 with
  | none =>
    rw [given] at filled
    exact absurd rfl filled
  | some m => exact ⟨m, (((marked.markString place).2.2.1 m).mp given).1, rfl⟩

/-! ### Lookups by a class's own name -/

namespace Session

/-- **Every class is found by its own name, unless the name is marked as local.**  In a program
    whose blocks do not overlap and lie within the range of pointers, after any queries: let a class
    with an aligned name field in the data be called `name`, and let the string `stored` of its name
    stand in the data once.  Then the name is the string without its mark, and looking the name up
    leads to a class with the same string exactly if there is no mark. -/
theorem found_by_own_name (image : Image) (demangle : Demangler) (limits : Limits)
    (table : Detector) (listing : Listing) (queries : List Query) (tidy : image.Tidy)
    (readable : image.order.Known) (inRange : ∀ b ∈ image.blocks, b.stop ≤ image.width.span)
    (t : TypeInfo) (aligned : t.address % image.ptr = 0) (inData : t.FieldInData image)
    (place : Int) (pointer : t.nameAddress image = .ok (some place)) (stored : String)
    (plain : (0 : UInt8) ∉ encodeUtf8 stored) (stands : image.IsNameHit none stored place)
    (only : ∀ other, image.IsNameHit none stored other → other = place) (name : String)
    (filled : name ≠ "") :
    let s := (start image demangle limits table listing).after queries
    let later := (s.ask (.ofClass t.address .typeName)).2
    s.context.Identified t →
    (s.ask (.ofClass t.address .typeName)).1 = .ok (.text (some name)) →
    name = withoutLocalMark stored ∧
      ((∃ u, (later.ask (.findTypeInfo false none name)).1 =
          .ok (.typeInfo (some (u, some place)))) ↔
        hasPrefix "*" stored = false) := by
  intro s later identified named
  obtain ⟨grounded, leads⟩ : s.Grounded ∧ (start image demangle limits table listing).Leads s :=
    after_leads (grounded_start image demangle limits table listing) queries
  have same : s.image = image := congrArg Context.image leads.context
  rw [← same] at tidy readable inRange aligned inData pointer stands only
  obtain ⟨after, asked, marks⟩ := ask_typeName grounded identified pointer
  have spells : s.image.spelling s.known.marks place = name := by
    rw [asked] at named
    cases named
    rfl
  have isStored : name = withoutLocalMark stored := by
    obtain ⟨m, string, read⟩ := grounded.marks.of_spelling (spells ▸ filled)
    rw [← stands.text_of_string tidy plain string]
    exact spells.symm.trans read
  refine ⟨isStored, ?_⟩
  -- after the name was read, the session still says that the class is called so
  have still : later.Grounded := (ask_leads grounded (.ofClass t.address .typeName)).1
  have is : later = { s with known := after } := congrArg Prod.snd asked
  have called : later.CalledAt name place t := by
    rw [is] at still ⊢
    refine calledAt_of_spelling still identified pointer ?_ ?_
    · show s.image.spelling after.marks place = name
      rw [marks]
      exact (grounded.marks.spelling_twice place).trans spells
    · show (t.address + s.image.ptr) % s.image.ptr = 0
      rw [Int.add_emod_right, aligned]
  have image' : later.image = s.image := by rw [is]
  rw [← image'] at tidy readable inRange inData stands only
  constructor
  · rintro ⟨u, found⟩
    by_contra marked
    rw [Bool.not_eq_false] at marked
    -- the name would stand at the place of its string, right at the mark
    obtain ⟨hit, single, at', -⟩ := first_of_found still tidy filled found
    cases at'
    obtain ⟨again, -⟩ := (Image.nameHits_eq_singleton_iff tidy).mp single
    rw [isStored] at again
    exact stands.not_of_marked tidy plain marked again
  · intro unmarked
    rw [withoutLocalMark_of_plain unmarked] at isStored
    subst isStored
    have single := (Image.nameHits_eq_singleton_iff tidy).mpr ⟨stands, only⟩
    have fits : place < later.image.width.span := by
      obtain ⟨b, member, -, -, -, upper, -, -⟩ := stands
      have stop := b.rangeWithin_le_stop none
      have := inRange b member
      omega
    exact finds_of_called still tidy readable filled single fits called inData

/-- In the program with shared names a class `1A` is found by its own name.  The other class says
    that it is called `1B`, and looking that up does not lead to it. -/
theorem found_by_own_name_sampleNames :
    (∃ u, ((sampleNames.ask (.ofClass 0x400010 .typeName)).2.ask
        (.findTypeInfo false none "1A")).1 =
        .ok (.typeInfo (some (u, some 0x400030)))) ∧
      (sampleNames.ask (.ofClass 0x400020 .typeName)).1 = .ok (.text (some "1B")) ∧
      ¬ ∃ u, ((sampleNames.ask (.ofClass 0x400020 .typeName)).2.ask
          (.findTypeInfo false none "1B")).1 = .ok (.typeInfo (some (u, some 0x400033))) := by
  have tidy := Image.tidy_sampleNames
  have inRange : ∀ b ∈ Image.sampleNames.blocks, b.stop ≤ Image.sampleNames.width.span := by decide
  have first : Image.sampleNames.nameHits none "1A" = [0x400030] := by decide +kernel
  have second : Image.sampleNames.nameHits none "*1B" = [0x400033] := by decide +kernel
  rw [Image.nameHits_eq_singleton_iff tidy] at first second
  -- both classes are recognised, and what is read for their names is known
  have grounded : sampleNames.Grounded :=
    (after_leads (grounded_start .sampleNames (fun _ => none) {} (.ofTable []) []) _).1
  have identified : sampleNames.context.Identified ⟨0x400010, .simple⟩ ∧
      sampleNames.context.Identified ⟨0x400020, .simple⟩ := by
    unfold Context.Identified
    decide +kernel
  have pointers : TypeInfo.nameAddress .sampleNames ⟨0x400010, .simple⟩ = .ok (some 0x400030) ∧
      TypeInfo.nameAddress .sampleNames ⟨0x400020, .simple⟩ = .ok (some 0x400033) := by
    decide +kernel
  have spellings : Image.spelling .sampleNames sampleNames.known.marks 0x400030 = "1A" ∧
      Image.spelling .sampleNames sampleNames.known.marks 0x400033 = "1B" := by decide +kernel
  have named : (sampleNames.ask (.ofClass 0x400010 .typeName)).1 = .ok (.text (some "1A")) ∧
      (sampleNames.ask (.ofClass 0x400020 .typeName)).1 = .ok (.text (some "1B")) := by
    obtain ⟨_, first, -⟩ := ask_typeName grounded identified.1 pointers.1
    obtain ⟨_, second, -⟩ := ask_typeName grounded identified.2 pointers.2
    rw [← spellings.1, ← spellings.2]
    exact ⟨congrArg Prod.fst first, congrArg Prod.fst second⟩
  have found := found_by_own_name .sampleNames (fun _ => none) {} (.ofTable []) []
    [.ofClass 0x400010 .typeName] tidy trivial inRange
  have plain := found ⟨0x400010, .simple⟩ (by decide)
    ⟨.sampleNames, List.mem_cons_self .., by decide, by decide, by decide⟩ 0x400030
    pointers.1 "1A" (by decide) first.1 first.2 "1A" (by decide) identified.1 named.1
  have marked := found ⟨0x400020, .simple⟩ (by decide)
    ⟨.sampleNames, List.mem_cons_self .., by decide, by decide, by decide⟩ 0x400033
    pointers.2 "*1B" (by decide) second.1 second.2 "1B" (by decide) identified.2 named.2
  refine ⟨plain.2.mpr (by decide), named.2, fun found => ?_⟩
  exact absurd (marked.2.mp found) (by decide)

end Session

end ItaniumRtti
