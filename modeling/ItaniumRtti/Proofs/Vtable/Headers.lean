import ItaniumRtti.Proofs.Session.Settled

namespace ItaniumRtti

/-!
# Headers that are found

What it means that a header stands at a word, said of the words of the program and of the names
that are known, and that the questions about headers find out exactly this.

* `Group.OffsetWord` — a word that is read as an offset;
* `Group.RefersToOwner` — a word that refers to the owner of the group;
* `Group.HeaderAt` — an offset to the top and a word that refers to the owner;
* `Group.Heads` — a header after offset words;
* `Context.headerOf?_settles` — exactly these headers are found.
-/

open Recover

/-! ### Words -/

theorem Image.nthWord_zero (img : Image) (address : Int) :
    address + img.ptr * ((0 : Nat) : Int) = address := by
  rw [Int.natCast_zero, Int.mul_zero, Int.add_zero]

theorem Image.nthWord_succ (img : Image) (address : Int) (i : Nat) :
    address + img.ptr * ((i + 1 : Nat) : Int) = address + img.ptr + img.ptr * i := by
  rw [Int.natCast_succ, Int.mul_add, Int.mul_one]
  omega

namespace Group

variable (ctx : Context) (g : Group)

/-- The word at `address` lies in the block, is not relocated, and holds a `value` within the
    limit. -/
structure OffsetWord (address value : Int) : Prop where
  /-- It lies in the block of the group. -/
  inside : g.block.contains address ctx.image.ptr = true
  /-- The loader leaves it alone. -/
  plain : ctx.image.relocationAt? address = none
  /-- It holds the value. -/
  stored : ctx.image.readInt address ctx.image.ptr true = .ok (some value)
  /-- The value is small enough. -/
  small : ctx.limits.maxOffsetToTop.exceededBy value.natAbs = .ok false

/-- A pointer to `target` stands for the owner: it leads to the owner's type_info, or to another
    one of the same name. -/
def StandsForOwner (known : Knowledge) (target : Int) : Prop :=
  target ≠ 0 ∧ (target = g.owner.address ∨
    ∃ other name, ctx.roots.identify ctx.image target = .ok (some other) ∧ name ≠ "" ∧
      Recover.typeNameAt ctx other.address known = .ok name known ∧
      Recover.typeNameAt ctx g.owner.address known = .ok name known)

/-- The word at `address` refers to the owner: by the symbol of its relocation, or as a pointer. -/
def RefersToOwner (known : Knowledge) (address : Int) : Prop :=
  g.block.contains address ctx.image.ptr = true ∧
    ((∃ name, (ctx.image.relocationAt? address).bind (·.symbol) = some (typeInfoPrefix ++ name) ∧
      Recover.typeNameAt ctx g.owner.address known = .ok name known) ∨
    ∃ target, ctx.image.resolve address = .ok (some target) ∧ g.StandsForOwner ctx known target)

/-- A header stands at `address`.  The offset to the top in a secondary one is not zero. -/
structure HeaderAt (known : Knowledge) (secondary : Bool) (address offset : Int) : Prop where
  /-- First comes the offset to the top. -/
  word : g.OffsetWord ctx address offset
  /-- Zero is the offset of the first table. -/
  nonzero : secondary = true → offset ≠ 0
  /-- Then comes the owner. -/
  refers : g.RefersToOwner ctx known (address + ctx.image.ptr)

/-- The header `h` is the next one from a word on: there are only offset words before it, and no
    symbol, though one may stand at the `first` word. -/
inductive Heads (known : Knowledge) (secondary : Bool) : Bool → Int → Header → Prop where
  /-- The header stands at the word. -/
  | here {first : Bool} {address offset : Int} :
      (first = false → ctx.image.hasSymbolAt address = false) →
      g.HeaderAt ctx known secondary address offset →
      Heads known secondary first address ⟨address, offset, []⟩
  /-- The word is an offset word. -/
  | later {first : Bool} {address value : Int} {h : Header} :
      (first = false → ctx.image.hasSymbolAt address = false) →
      (∀ offset, ¬ g.HeaderAt ctx known secondary address offset) →
      g.OffsetWord ctx address value →
      Heads known secondary false (address + ctx.image.ptr) h →
      Heads known secondary first address { h with vcallOffsets := value :: h.vcallOffsets }

variable {ctx g} {known : Knowledge} {secondary first : Bool} {address : Int}

/-- A small integer is read exactly from an offset word. -/
theorem smallInt_eq_some_iff {value : Int} :
    g.smallInt ctx address = .ok (some value) ↔ g.OffsetWord ctx address value := by
  unfold smallInt
  -- Nothing is read outside the block or where the loader writes.
  by_cases outside :
      (!g.block.contains address ctx.image.ptr || (ctx.image.relocationAt? address).isSome) = true
  · rw [if_pos outside]
    constructor
    · intro answered
      cases answered
    · intro word
      rw [word.inside, word.plain] at outside
      cases outside
  rw [if_neg outside]
  simp only [Bool.or_eq_true, Bool.not_eq_true', not_or, Bool.not_eq_false, Bool.not_eq_true,
    Option.isSome_eq_false_iff, Option.isNone_iff_eq_none] at outside
  constructor
  · intro answered
    obtain ⟨word, stored, answered⟩ := of_except_bind_ok answered
    cases word with
    | none => cases answered
    | some found =>
      obtain ⟨exceeds, small, answered⟩ := of_except_bind_ok answered
      cases exceeds with
      | true => cases answered
      | false =>
        cases answered
        exact ⟨outside.1, outside.2, stored, small⟩
  · intro word
    rw [word.stored]
    show ctx.limits.maxOffsetToTop.exceededBy value.natAbs >>= _ = _
    rw [word.small]
    rfl

/-! ### Words that are found -/

/-- The name of a class is the one that can be read at its address, even where it was kept long
    before. -/
theorem typeName_settles {t : TypeInfo} (identified : ctx.Identified t) :
    Settles ctx (fun known name => typeNameAt ctx t.address known = .ok name known)
      (t.typeName ctx) := by
  intro k after name grounded answered
  have lasting := (Context.nameAs_repeating identified .mangled).self
  obtain ⟨-, still, grows⟩ := lasting.of_ok grounded answered
  have kept : after.names.find t.address .mangled = some name :=
    known_of_remember (Context.nameCell t .mangled).put answered
  refine ⟨still, grows, fun later there more => ?_⟩
  exact ((still.names kept).2 rfl).mono still.marks there.marks more.marks later rfl

/-- So is the name of a class that may not have been met. -/
theorem nameOf_settles {t : TypeInfo} (identified : ctx.Identified t) :
    Settles ctx (fun known name => typeNameAt ctx t.address known = .ok name known)
      (nameOf ctx t) := by
  intro k after name grounded answered
  rw [nameOf, get_bind] at answered
  split at answered
  · exact typeName_settles identified grounded answered
  · obtain ⟨still, grows, named⟩ :=
      (ctx.typeNameAt_repeating t.address).self.settles grounded answered
    exact ⟨still, grows, fun later there more => (named later there more).2⟩

/-- Whether a pointer to `target` stands for the owner, as it is found out. -/
def asksForOwner (ctx : Context) (g : Group) (target : Int) : Recover Bool := do
  if target = 0 then return false
  if target = g.owner.address then return true
  match ← Recover.lift (ctx.roots.identify ctx.image target) with
  | none => return false
  | some other =>
    let name ← Recover.nameOf ctx other
    if name = "" then return false
    return name = (← g.owner.typeName ctx)

/-- The question whether a pointer stands for the owner is answered by what is known then. -/
theorem asksForOwner_settles {g : Group} (owned : ctx.Identified g.owner) (target : Int) :
    Settles ctx (fun known stands => stands = true ↔ g.StandsForOwner ctx known target)
      (g.asksForOwner ctx target) := by
  unfold asksForOwner
  refine .ite (fun zero => .pure fun known => ?_) fun nonzero => ?_
  · exact iff_of_false Bool.false_ne_true fun stands => stands.1 zero
  refine .ite (fun same => .pure fun known => ?_) fun different => ?_
  · exact iff_of_true rfl ⟨nonzero, .inl same⟩
  -- the pointer leads elsewhere, so the names decide
  refine (Settles.lift _).bind fun found recognised => ?_
  cases found with
  | none =>
    refine .pure fun known identified => iff_of_false Bool.false_ne_true ?_
    rintro ⟨-, same | ⟨other, name, also, -⟩⟩
    · exact different same
    · cases identified.symm.trans also
  | some other =>
    have is : ctx.Identified other := Context.identified_of_identify recognised.choose_spec
    refine (nameOf_settles is).bind fun name _ => ?_
    refine .ite (fun empty => .pure fun known named identified => ?_) fun filled => ?_
    · refine iff_of_false Bool.false_ne_true ?_
      rintro ⟨-, same | ⟨_, _, also, filled, namedToo, -⟩⟩
      · exact different same
      · cases identified.symm.trans also
        cases named.symm.trans namedToo
        exact filled empty
    refine (typeName_settles owned).bind fun own _ => ?_
    refine .pure fun known owns named identified => ?_
    rw [decide_eq_true_eq]
    constructor
    · intro same
      exact ⟨nonzero, .inr ⟨other, name, identified, filled, named, same ▸ owns⟩⟩
    · rintro ⟨-, same | ⟨_, _, also, -, namedToo, ownsToo⟩⟩
      · exact absurd same different
      · cases identified.symm.trans also
        cases named.symm.trans namedToo
        cases owns.symm.trans ownsToo
        rfl

/-- The question whether a word refers to the owner is answered in the same way. -/
theorem pointsAtOwner_settles {g : Group} (owned : ctx.Identified g.owner) (address : Int) :
    Settles ctx (fun known refers => refers = true ↔ g.RefersToOwner ctx known address)
      (g.pointsAtOwner ctx address) := by
  unfold pointsAtOwner
  refine .ite (fun outside => .pure fun known => ?_) fun inside => ?_
  · refine iff_of_false Bool.false_ne_true fun refers => ?_
    rw [refers.1] at outside
    cases outside
  rw [Bool.not_eq_true', Bool.not_eq_false] at inside
  extract_lets byValue
  -- what is found out unless the word is relocated against the owner's symbol
  have value : Settles ctx (fun known refers => refers = true ↔
      ∃ target, ctx.image.resolve address = .ok (some target) ∧ g.StandsForOwner ctx known target)
      (byValue ()) := by
    refine (Settles.lift _).bind fun value _ => ?_
    cases value with
    | none =>
      refine .pure fun known resolved => iff_of_false Bool.false_ne_true ?_
      rintro ⟨target, also, -⟩
      cases resolved.symm.trans also
    | some target =>
      refine (asksForOwner_settles owned target).mono fun known stands iff resolved => ?_
      rw [iff]
      constructor
      · exact fun holds => ⟨target, resolved, holds⟩
      · rintro ⟨_, also, holds⟩
        cases resolved.symm.trans also
        exact holds
  cases relocated : (ctx.image.relocationAt? address).bind (·.symbol) with
  | none =>
    refine value.mono fun known refers iff => ?_
    unfold RefersToOwner
    rw [iff, relocated]
    constructor
    · exact fun leads => ⟨inside, .inr leads⟩
    · rintro ⟨-, ⟨name, other, -⟩ | leads⟩
      · cases other
      · exact leads
  | some symbol =>
    refine (typeName_settles owned).bind fun own _ => ?_
    refine .ite (fun same => .pure fun known owns => ?_) fun different => ?_
    · exact iff_of_true rfl ⟨inside, .inl ⟨own, same ▸ relocated, owns⟩⟩
    refine value.mono fun known refers iff owns => ?_
    unfold RefersToOwner
    rw [iff, relocated]
    constructor
    · exact fun leads => ⟨inside, .inr leads⟩
    · rintro ⟨-, ⟨name, same, ownsToo⟩ | leads⟩
      · cases owns.symm.trans ownsToo
        exact absurd (Option.some.inj same) different
      · exact leads

/-! ### Headers -/

/-- An offset is found exactly where a header stands. -/
theorem offsetAt?_settles {g : Group} (owned : ctx.Identified g.owner) (secondary : Bool)
    (address : Int) :
    Settles ctx (fun known found =>
      ∀ offset, found = some offset ↔ g.HeaderAt ctx known secondary address offset)
      (g.offsetAt? ctx secondary address) := by
  unfold offsetAt?
  refine (Settles.lift _).bind fun word _ => ?_
  cases word with
  | none =>
    refine .pure fun known none offset => iff_of_false (fun found => by cases found) ?_
    intro header
    cases none.symm.trans (smallInt_eq_some_iff.mpr header.word)
  | some value =>
    -- A zero is turned down before the next word is looked at.
    refine .ite (fun zero => .pure fun known small offset => ?_) fun allowed => ?_
    · refine iff_of_false (fun found => by cases found) fun header => ?_
      cases small.symm.trans (smallInt_eq_some_iff.mpr header.word)
      rw [Bool.and_eq_true, decide_eq_true_eq] at zero
      exact header.nonzero zero.1 zero.2
    rw [Bool.and_eq_true, decide_eq_true_eq, not_and] at allowed
    refine (pointsAtOwner_settles owned _).bind fun refers _ => ?_
    refine .ite (fun yes => .pure fun known iff small offset => ?_) fun no =>
      .pure fun known iff small offset => ?_
    · constructor
      · intro same
        cases same
        exact ⟨smallInt_eq_some_iff.mp small, allowed, iff.mp yes⟩
      · intro header
        cases small.symm.trans (smallInt_eq_some_iff.mpr header.word)
        rfl
    · exact iff_of_false (fun found => by cases found) fun header => no (iff.mpr header.refers)

namespace Heads

variable {h : Header}

/-- Only the first word may carry a symbol. -/
theorem unnamed (heads : g.Heads ctx known secondary first address h) (later : first = false) :
    ctx.image.hasSymbolAt address = false := by
  cases heads with
  | here clear header => exact clear later
  | later clear other word rest => exact clear later

/-- The header follows the offset words. -/
theorem address_eq (heads : g.Heads ctx known secondary first address h) :
    h.address = address + ctx.image.ptr * h.vcallOffsets.length := by
  induction heads with
  | here clear header => exact (ctx.image.nthWord_zero _).symm
  | later clear other word rest ih =>
    rw [List.length_cons, ctx.image.nthWord_succ]
    exact ih

/-- The words to which the search leads are those of a header. -/
theorem header (heads : g.Heads ctx known secondary first address h) :
    g.HeaderAt ctx known secondary h.address h.offsetToTop := by
  induction heads with
  | here clear header => exact header
  | later clear other word rest ih => exact ih

/-- The words up to the header hold the offsets. -/
theorem offsetWord (heads : g.Heads ctx known secondary first address h) {i : Nat} {value : Int}
    (listed : (h.vcallOffsets ++ [h.offsetToTop])[i]? = some value) :
    g.OffsetWord ctx (address + ctx.image.ptr * i) value := by
  -- Along the search, where the index counts down with each word that is passed.
  induction heads generalizing i with
  | @here _ address offset clear header =>
    cases i with
    | zero =>
      cases listed
      rw [ctx.image.nthWord_zero]
      exact header.word
    | succ i => cases listed
  | @later _ address first h clear other word rest ih =>
    cases i with
    | zero =>
      cases listed
      rw [ctx.image.nthWord_zero]
      exact word
    | succ i =>
      rw [ctx.image.nthWord_succ]
      exact ih listed

/-- No symbol stands between the first word and the header. -/
theorem hasSymbolAt (heads : g.Heads ctx known secondary first address h) {i : Nat} (after : 0 < i)
    (before : i ≤ h.vcallOffsets.length) :
    ctx.image.hasSymbolAt (address + ctx.image.ptr * i) = false := by
  induction heads generalizing i with
  | here clear header =>
    rw [List.length_nil] at before
    omega
  | @later _ address value h clear other word rest ih =>
    obtain ⟨i, rfl⟩ : ∃ j, i = j + 1 := ⟨i - 1, by omega⟩
    rw [List.length_cons] at before
    rw [ctx.image.nthWord_succ]
    -- The first word may have a symbol; for the next one the search has looked, and for the others
    -- the induction hypothesis says so.
    cases i with
    | zero =>
      rw [ctx.image.nthWord_zero]
      exact rest.unnamed rfl
    | succ i => exact ih (Nat.succ_pos i) (by omega)

end Heads

/-- The search finds a header exactly if one is next and stands within the number of tries. -/
theorem headerFrom_settles {g : Group} (owned : ctx.Identified g.owner) (secondary : Bool)
    (tries : Nat) (first : Bool) (address : Int) :
    Settles ctx (fun known found => ∀ h, found = some h ↔
      g.Heads ctx known secondary first address h ∧ h.vcallOffsets.length < tries)
      (g.headerFrom ctx secondary tries first address) := by
  have none : ∀ h : Header, ¬ (none = some h) := fun h found => by cases found
  -- By induction on the tries, and then in the order of the search: symbol, header, offset word.
  induction tries generalizing first address with
  | zero =>
    refine .pure fun known h => iff_of_false (none h) ?_
    exact fun found => absurd found.2 (Nat.not_lt_zero _)
  | succ tries ih =>
    unfold headerFrom
    refine .ite (fun symbol => .pure fun known h => iff_of_false (none h) ?_) fun clear => ?_
    · rintro ⟨heads, -⟩
      rw [Bool.and_eq_true, Bool.not_eq_true'] at symbol
      cases symbol.2.symm.trans (heads.unnamed symbol.1)
    -- Only the first word may have a symbol.
    replace clear : first = false → ctx.image.hasSymbolAt address = false := by
      intro later
      rw [later, Bool.not_false, Bool.true_and, Bool.not_eq_true] at clear
      exact clear
    refine (offsetAt?_settles owned secondary address).bind fun offset _ => ?_
    cases offset with
    | some offset =>
      refine .pure fun known iff h => ?_
      constructor
      · intro same
        cases same
        exact ⟨.here clear ((iff offset).mp rfl), Nat.succ_pos tries⟩
      · rintro ⟨heads, -⟩
        cases heads with
        | @here _ _ offset' clear header =>
          cases (iff offset').mpr header
          rfl
        | later clear other word rest => exact absurd ((iff offset).mp rfl) (other offset)
    | none =>
      refine (Settles.lift _).bind fun word _ => ?_
      cases word with
      | none =>
        refine .pure fun known small iff h => iff_of_false (none h) ?_
        rintro ⟨heads, -⟩
        cases heads with
        | @here _ _ offset' clear header => cases (iff offset').mpr header
        | later clear other word rest => cases small.symm.trans (smallInt_eq_some_iff.mpr word)
      | some value =>
        refine (ih false _).bind fun rest _ => .pure fun known step small iff h => ?_
        constructor
        · intro found
          obtain ⟨h', same, rfl⟩ := Option.map_eq_some_iff.mp found
          obtain ⟨heads, few⟩ := (step h').mp same
          refine ⟨.later clear ?_ (smallInt_eq_some_iff.mp small) heads, ?_⟩
          · exact fun offset header => by cases (iff offset).mpr header
          · exact Nat.succ_lt_succ few
        · rintro ⟨heads, few⟩
          cases heads with
          | @here _ _ offset' clear header => cases (iff offset').mpr header
          | @later _ _ value' h' clear other word heads =>
            cases small.symm.trans (smallInt_eq_some_iff.mpr word)
            rw [(step h').mpr ⟨heads, Nat.lt_of_succ_lt_succ few⟩]
            rfl

/-- **The headers that are found** are the next ones after at most as many offset words as the
    limit allows. -/
theorem headerOf?_settles {g : Group} (owned : ctx.Identified g.owner) (secondary : Bool)
    (start : Int) :
    Settles ctx (fun known found => ∀ h, found = some h ↔
      g.Heads ctx known secondary true start h ∧
        ∃ most, ctx.limits.maxVcallOffsets.asWhole = .ok most ∧ h.vcallOffsets.length ≤ most)
      (g.headerOf? ctx secondary start) := by
  unfold headerOf?
  refine (Settles.lift _).bind fun most _ => ?_
  refine (headerFrom_settles owned secondary _ true start).mono fun known found iff limit h => ?_
  rw [iff h]
  refine and_congr_right fun _ => ⟨fun few => ⟨most, limit, by omega⟩, ?_⟩
  rintro ⟨most', limit', few⟩
  cases limit.symm.trans limit'
  omega

end Group

end ItaniumRtti
