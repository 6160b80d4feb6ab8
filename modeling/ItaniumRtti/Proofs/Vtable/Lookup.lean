import ItaniumRtti.Proofs.Hierarchy.Graph
import ItaniumRtti.Proofs.References
import ItaniumRtti.Proofs.Vtable.Groups

namespace ItaniumRtti

/-!
# Vtables that no symbol names

Without a symbol, the vtable of a class is looked for from the words that point to the class: a zero
before such a word makes it a header, and the group starts at the first of the offset words before.

* `Context.OffsetBefore` — the group of a header may start a word earlier;
* `Context.groupStart_spec` — how far back the start is looked for;
* `TypeInfo.PlainHeader` — the words of a primary header, said of the program alone;
* `Context.Overruns` — the start is looked for in the block before the header's own;
* `TypeInfo.vtableWithHeader?_settles` — exactly the other headers lead to a vtable;
* `TypeInfo.bestVtable_settles` — the lowest header with slots is chosen, or else the lowest;
* `Session.lookup_exact` — the lookup finds exactly these vtables.
-/

open Recover

/-! ### Blocks and words -/

namespace Image

variable {img : Image}

/-- A block that starts before another also ends before it. -/
theorem Tidy.stop_le (tidy : img.Tidy) {b c : Block} (first : b ∈ img.blocks)
    (second : c ∈ img.blocks) (before : b.start < c.start) : b.stop ≤ c.start := by
  by_contra after
  have covered : img.blockAt? c.start = some b :=
    (blockAt?_eq_some_iff tidy).mpr ⟨first, Int.le_of_lt before, Int.not_le.mp after⟩
  cases covered.symm.trans (blockAt?_start tidy second)
  exact Int.lt_irrefl _ before

/-- A word lies in at most one block. -/
theorem Tidy.eq_of_contains (tidy : img.Tidy) {b c : Block} {address : Int}
    (first : b ∈ img.blocks) (second : c ∈ img.blocks)
    (inside : b.contains address img.ptr = true) (covers : c.Covers address) : b = c := by
  rw [Block.contains_iff] at inside
  have positive := img.ptr_pos
  have here : img.blockAt? address = some b :=
    (blockAt?_eq_some_iff tidy).mpr ⟨first, inside.1, by omega⟩
  cases here.symm.trans ((blockAt?_eq_some_iff tidy).mpr ⟨second, covers⟩)
  rfl

theorem wordBack_zero (img : Image) (address : Int) :
    address - img.ptr * ((0 : Nat) : Int) = address := by
  rw [Int.natCast_zero, Int.mul_zero, Int.sub_zero]

theorem wordBack_succ (img : Image) (address : Int) (i : Nat) :
    address - img.ptr * ((i + 1 : Nat) : Int) = address - img.ptr - img.ptr * i := by
  rw [Int.natCast_succ, Int.mul_add, Int.mul_one]
  omega

/-- A word that can be read with a sign is a pointer too, and the two readings are the same or one
    span apart. -/
theorem readPointer_of_readInt {address value : Int}
    (stored : img.readInt address img.ptr true = .ok (some value)) :
    ∃ n, img.readPointer address = .ok (some n) ∧ 0 ≤ n ∧ n < img.width.span ∧
      (value = n ∨ value = n - img.width.span) := by
  rw [readInt_signed] at stored
  cases read : img.readInt address img.ptr false with
  | error fault =>
    rw [read] at stored
    cases stored
  | ok found =>
    rw [read] at stored
    cases found with
    | none => cases stored
    | some n =>
      obtain ⟨nonneg, small⟩ := readPointer_bounds read
      refine ⟨n, read, nonneg, small, ?_⟩
      -- The sign is the only difference: both readings have the same bytes.
      have signed : signedValue img.ptr.toNat n.toNat = value :=
        Option.some.inj (Except.ok.inj stored)
      have span : (Nat.pow 256 img.ptr.toNat : Int) = img.width.span := rfl
      rw [signedValue] at signed
      split at signed
      · omega
      · omega

/-- A zero word that is not relocated is a null pointer. -/
theorem resolve_of_zero {address : Int} (plain : img.relocationAt? address = none)
    (zero : img.readInt address img.ptr true = .ok (some 0)) :
    img.resolve address = .ok (some 0) := by
  obtain ⟨n, read, nonneg, small, same⟩ := readPointer_of_readInt zero
  obtain rfl : n = 0 := by omega
  rw [resolve, plain]
  exact read

end Image

/-! ### Where groups start -/

namespace Context

/-- The word before `address` holds the `value` of an offset word that is not zero, and no symbol
    stands at `address`: a group may start earlier. -/
structure OffsetBefore (ctx : Context) (address value : Int) : Prop where
  /-- No symbol stands at the address. -/
  clear : ctx.image.hasSymbolAt address = false
  /-- The loader leaves the word before alone. -/
  plain : ctx.image.relocationAt? (address - ctx.image.ptr) = none
  /-- It holds the value. -/
  stored : ctx.image.readInt (address - ctx.image.ptr) ctx.image.ptr true = .ok (some value)
  /-- The value is not zero. -/
  nonzero : value ≠ 0
  /-- It is small enough. -/
  small : ctx.limits.maxOffsetToTop.exceededBy value.natAbs = .ok false

variable {ctx : Context}

/-- One step back: a word earlier, or no further. -/
theorem groupStart_step (readable : ctx.image.order.Known) (fit : ctx.limits.Fit) (count : Nat)
    (address : Int) :
    (∃ value, ctx.OffsetBefore address value) ∧
      ctx.image.groupStart ctx.limits.maxOffsetToTop (count + 1) address =
        ctx.image.groupStart ctx.limits.maxOffsetToTop count (address - ctx.image.ptr) ∨
    (∀ value, ¬ ctx.OffsetBefore address value) ∧
      ctx.image.groupStart ctx.limits.maxOffsetToTop (count + 1) address = .ok address := by
  rw [Image.groupStart]
  -- The tests in their order; each that fails is a field of `OffsetBefore` that fails.
  by_cases stops : (ctx.image.hasSymbolAt address ||
      (ctx.image.relocationAt? (address - ctx.image.ptr)).isSome) = true
  · refine .inr ⟨fun value before => ?_, by rw [if_pos stops]; rfl⟩
    rw [before.clear, before.plain] at stops
    cases stops
  rw [if_neg stops]
  simp only [Bool.or_eq_true, not_or, Bool.not_eq_true, Option.isSome_eq_false_iff,
    Option.isNone_iff_eq_none] at stops
  obtain ⟨word, read⟩ := Image.readInt_ok readable (address - ctx.image.ptr) ctx.image.ptr true
  rw [read]
  cases word with
  | none =>
    refine .inr ⟨fun value before => ?_, rfl⟩
    cases read.symm.trans before.stored
  | some value =>
    show _ ∧ (if value = 0 then _ else _) = _ ∨ _ ∧ (if value = 0 then _ else _) = _
    by_cases zero : value = 0
    · refine .inr ⟨fun value' before => ?_, by rw [if_pos zero]; rfl⟩
      cases read.symm.trans before.stored
      exact before.nonzero zero
    rw [if_neg zero]
    cases limit : ctx.limits.maxOffsetToTop.exceededBy value.natAbs with
    | error fault => exact absurd (Bound.exceededBy_faults _ _ fault limit).2 fit.offsetToTop
    | ok exceeds =>
      cases exceeds with
      | true =>
        refine .inr ⟨fun value' before => ?_, rfl⟩
        cases read.symm.trans before.stored
        cases limit.symm.trans before.small
      | false => exact .inl ⟨⟨value, stops.1, stops.2, read, zero, limit⟩, rfl⟩

/-- **How far back the start of a group is looked for**: over all offset words before the address,
    unless there are too many. -/
theorem groupStart_spec (readable : ctx.image.order.Known) (fit : ctx.limits.Fit) (count : Nat)
    (address : Int) :
    ∃ n : Nat, n ≤ count ∧ ctx.image.groupStart ctx.limits.maxOffsetToTop count address =
        .ok (address - ctx.image.ptr * n) ∧
      (∀ i < n, ∃ value, ctx.OffsetBefore (address - ctx.image.ptr * i) value) ∧
      (n < count → ∀ value, ¬ ctx.OffsetBefore (address - ctx.image.ptr * n) value) := by
  -- By induction on the words that may still be passed.
  induction count generalizing address with
  | zero =>
    refine ⟨0, Nat.le_refl 0, ?_, fun i less => ?_, fun less => ?_⟩
    · rw [ctx.image.wordBack_zero]
      rfl
    · exact absurd less (Nat.not_lt_zero i)
    · exact absurd less (Nat.lt_irrefl 0)
  | succ count ih =>
    rcases groupStart_step readable fit count address with ⟨goes, step⟩ | ⟨stops, step⟩
    · obtain ⟨n, most, start, offsets, last⟩ := ih (address - ctx.image.ptr)
      rw [← ctx.image.wordBack_succ] at start last
      refine ⟨n + 1, Nat.succ_le_succ most, step.trans start, fun i less => ?_, fun less => ?_⟩
      · cases i with
        | zero =>
          rw [ctx.image.wordBack_zero]
          exact goes
        | succ i =>
          rw [ctx.image.wordBack_succ]
          exact offsets i (Nat.lt_of_succ_lt_succ less)
      · exact last (Nat.lt_of_succ_lt_succ less)
    · refine ⟨0, Nat.zero_le _, ?_, fun i less => absurd less (Nat.not_lt_zero i), fun _ => ?_⟩
      · rw [ctx.image.wordBack_zero, step]
      · rw [ctx.image.wordBack_zero]
        exact stops

/-- No word that can be an offset is the address of a class. -/
def OffsetsApart (ctx : Context) : Prop :=
  ∀ address value target c, ctx.image.relocationAt? address = none →
    ctx.image.readInt address ctx.image.ptr true = .ok (some value) →
    ctx.limits.maxOffsetToTop.exceededBy value.natAbs = .ok false →
    ctx.image.resolve address = .ok (some target) →
    ctx.roots.identify ctx.image target ≠ .ok (some c)

/-- Offsets are apart from classes if all places of the program are: a word within the limit is too
    low for them, or too high if it is negative. -/
theorem offsetsApart_of_places {limit : Nat} (whole : ctx.limits.maxOffsetToTop = .whole limit)
    (far : ∀ a ∈ ctx.image.places, limit < a ∧ a + limit < ctx.image.width.span) :
    ctx.OffsetsApart := by
  intro address value target c plain stored small resolved found
  have identified := identified_of_identify found
  have place := far target (Roots.address_of_identify found ▸ identified.mem_places)
  rw [Image.resolve, plain] at resolved
  obtain ⟨n, read, nonneg, -, same⟩ := Image.readPointer_of_readInt stored
  cases read.symm.trans resolved
  have within : (value.natAbs : Int) ≤ limit := by
    rw [whole] at small
    exact Int.not_lt.mp (of_decide_eq_false (Except.ok.inj small))
  omega

/-- The start of the group with the header at `address` is looked for in the block before `b`: there
    are nothing but offset words from the start of `b` up to the header, and one before `b`. -/
def Overruns (ctx : Context) (most : Nat) (b : Block) (address : Int) : Prop :=
  ∃ n : Nat, n < most ∧ address = b.start + ctx.image.ptr * n ∧
    ∀ i ≤ n, ∃ value, ctx.OffsetBefore (address - ctx.image.ptr * i) value

/-- That happens only where a block ends at the start of another. -/
theorem Overruns.touches {most : Nat} {b : Block} {address : Int}
    (overruns : ctx.Overruns most b address) (tidy : ctx.image.Tidy)
    (member : b ∈ ctx.image.blocks) : ∃ c ∈ ctx.image.blocks, c.stop = b.start := by
  obtain ⟨n, -, place, all⟩ := overruns
  obtain ⟨value, offset⟩ := all n (Nat.le_refl n)
  obtain ⟨c, found, inside⟩ := Image.blockAt?_of_readInt offset.stored
  have other := (Image.mem_of_blockAt? found).1
  have positive := ctx.image.ptr_pos
  rw [c.contains_iff] at inside
  have ends := tidy.stop_le other member (by omega)
  exact ⟨c, other, by omega⟩

end Context

/-! ### Headers -/

namespace Group

variable {ctx : Context} {g : Group} {known : Knowledge} {secondary first : Bool} {address : Int}

/-- The header that follows is determined. -/
theorem Heads.unique {h h' : Header} (heads : g.Heads ctx known secondary first address h)
    (other : g.Heads ctx known secondary first address h') : h = h' := by
  -- Both searches look at the same words, and a header or an offset word is determined by what it
  -- holds.
  induction heads generalizing h' with
  | here clear header =>
    cases other with
    | here _ header' =>
      cases header.word.stored.symm.trans header'.word.stored
      rfl
    | later _ not => exact absurd header (not _)
  | later clear not word rest ih =>
    cases other with
    | here _ header => exact absurd header (not _)
    | later _ _ word' rest' =>
      cases word.stored.symm.trans word'.stored
      rw [ih rest']

/-- A word that can be an offset does not refer to the owner. -/
theorem OffsetWord.not_refersToOwner {value : Int} (apart : ctx.OffsetsApart)
    (identified : ctx.Identified g.owner) (word : g.OffsetWord ctx address value) :
    ¬ g.RefersToOwner ctx known address := by
  rintro ⟨-, ⟨name, relocated, -⟩ | ⟨target, leads, -, same | ⟨other, -, found, -⟩⟩⟩
  · rw [word.plain] at relocated
    cases relocated
  · refine apart address value target g.owner word.plain word.stored word.small leads ?_
    rw [same]
    exact identified
  · exact apart address value target other word.plain word.stored word.small leads found

/-- **The header is the next one from every offset word before it**, by induction on how many words
    there are between. -/
theorem heads_of_offsets {h : Int} (apart : ctx.OffsetsApart) (identified : ctx.Identified g.owner)
    (header : g.HeaderAt ctx known false h 0) {n : Nat}
    (offsets : ∀ i < n, ∃ value, ctx.OffsetBefore (h - ctx.image.ptr * i) value)
    (inside : g.block.start ≤ h - ctx.image.ptr * n)
    (clear : first = false → ctx.image.hasSymbolAt (h - ctx.image.ptr * n) = false) :
    ∃ values : List Int, values.length = n ∧
      g.Heads ctx known false first (h - ctx.image.ptr * n) ⟨h, 0, values⟩ := by
  induction n generalizing first with
  | zero =>
    refine ⟨[], rfl, ?_⟩
    rw [ctx.image.wordBack_zero] at clear ⊢
    exact .here clear header
  | succ n ih =>
    have positive := ctx.image.ptr_pos
    have back : h - ctx.image.ptr * ((n + 1 : Nat) : Int) =
        h - ctx.image.ptr * n - ctx.image.ptr := by
      rw [ctx.image.wordBack_succ]
      omega
    obtain ⟨value, before⟩ := offsets n (Nat.lt_succ_self n)
    obtain ⟨values, length, heads⟩ := ih (fun i less => offsets i (Nat.lt_succ_of_lt less))
      (by omega) fun _ => before.clear
    refine ⟨value :: values, by rw [List.length_cons, length], ?_⟩
    have nonneg := Int.mul_nonneg (Int.le_of_lt positive) (Int.natCast_nonneg n)
    have within := (g.block.contains_iff _ _).mp header.word.inside
    rw [back] at inside clear ⊢
    have word : g.OffsetWord ctx (h - ctx.image.ptr * n - ctx.image.ptr) value :=
      ⟨(g.block.contains_iff _ _).mpr ⟨inside, by omega⟩, before.plain, before.stored, before.small⟩
    have next : h - ctx.image.ptr * n - ctx.image.ptr + ctx.image.ptr = h - ctx.image.ptr * n := by
      omega
    refine .later clear (fun offset header => ?_) word (next ▸ heads)
    -- the word after it is an offset word too
    obtain ⟨following, listed⟩ : ∃ x, (values ++ [0])[0]? = some x :=
      ⟨_, List.getElem?_eq_getElem (by rw [List.length_append]; exact Nat.succ_pos _)⟩
    have after := heads.offsetWord listed
    rw [ctx.image.nthWord_zero] at after
    have refers := header.refers
    rw [next] at refers
    exact after.not_refersToOwner apart identified refers

end Group

namespace Group

variable {ctx : Context}

/-- If no table is read, no header follows. -/
theorem tablesFrom_nil_settles {g : Group} (owned : ctx.Identified g.owner) {count : Nat}
    (some : 0 < count) (address : Int) :
    Settles ctx (fun known tables => tables = [] → ∀ h most,
        g.Heads ctx known false true address h →
        ctx.limits.maxVcallOffsets.asWhole = .ok most → ¬ h.vcallOffsets.length ≤ most)
      (g.tablesFrom ctx count true address) := by
  obtain ⟨count, rfl⟩ : ∃ n, count = n + 1 := ⟨count - 1, by omega⟩
  rw [tablesFrom]
  refine Settles.checkCancelled.bind fun _ _ => .ite (fun never => ?_) fun _ => ?_
  · cases never
  refine (headerOf?_settles owned false address).bind fun header _ => ?_
  -- With a header there would be a table.
  cases header with
  | none =>
    refine .pure fun known iff _ _ h most heads limit few => ?_
    cases (iff h).mpr ⟨heads, most, limit, few⟩
  | some h =>
    refine (slotsAt_settles owned (h.address + 2 * ctx.image.ptr)).bind fun slots _ => ?_
    refine (tablesFrom_settles owned count false _).bind fun rest _ => .pure ?_
    intro known _ _ _ _ empty
    cases empty

end Group

namespace TypeInfo

variable {ctx : Context} {t : TypeInfo}

/-- A vtable is found at `address` wherever a primary header follows, and only in a block with
    contents. -/
structure Detects (ctx : Context) (t : TypeInfo) (address : Int) (known : Knowledge)
    (found : Option Vtable) : Prop where
  /-- Vtables lie in blocks with contents. -/
  contents : ∀ v, found = some v →
    ∃ b, ctx.image.blockAt? address = some b ∧ b.initialized = true
  /-- If there is none, no header follows. -/
  complete : found = none → ∀ b, ctx.image.blockAt? address = some b → b.initialized = true →
    ∃ secondaries, ∀ h most, (Group.mk t b secondaries).Heads ctx known false true address h →
      ctx.limits.maxVcallOffsets.asWhole = .ok most → ¬ h.vcallOffsets.length ≤ most

/-- A vtable is found wherever one can be read. -/
theorem vtableAt?_detects (identified : ctx.Identified t) (address : Int) :
    Settles ctx (t.Detects ctx address) (t.vtableAt? ctx address) := by
  rw [vtableAt?]
  cases located : (ctx.image.blockAt? address).filter (·.initialized) with
  | none =>
    refine .pure fun known => ⟨fun v found => ?_, fun _ b inside contents => ?_⟩
    · cases found
    · rw [inside, Option.filter_some, if_pos contents] at located
      cases located
  | some block =>
    obtain ⟨inside, contents⟩ := Option.filter_eq_some_iff.mp located
    refine (Context.hasSecondaries_settles identified).bind fun secondaries _ => ?_
    extract_lets rest
    -- Whatever the number of tables that are looked for, as long as there may be one.
    have counted : ∀ count, 0 < count →
        Settles ctx (t.Detects ctx address) (rest count) := by
      intro count positive
      refine (Group.tablesFrom_nil_settles (g := ⟨t, block, secondaries⟩) identified positive
        address).bind fun tables _ => ?_
      cases ends : tables.getLast? with
      | none =>
        refine .pure fun known empty => ⟨fun v found => ?_, fun _ b here _ => ?_⟩
        · cases found
        · cases inside.symm.trans here
          exact ⟨secondaries, empty (List.getLast?_eq_none_iff.mp ends)⟩
      | some last =>
        refine (withBases_settles identified tables).bind fun attached _ => .pure ?_
        refine fun known _ _ => ⟨fun v _ => ⟨block, inside, contents⟩, fun none => ?_⟩
        cases none
    refine .ite (fun _ => ?_) fun _ => ?_
    · refine (Context.ancestors_settles identified).bind fun ancestors _ => ?_
      exact (counted _ (by omega)).mono fun known found holds _ _ => holds
    · exact (counted 1 Nat.one_pos).mono fun known found holds _ => holds

end TypeInfo

/-! ### Vtables with a given header -/

namespace TypeInfo

/-- The words at `address` and after it, in the block `b`, are those of a primary header of the
    class: a zero and a pointer to the class. -/
structure PlainHeader (ctx : Context) (t : TypeInfo) (b : Block) (address : Int) : Prop where
  /-- The block is one of the program's. -/
  member : b ∈ ctx.image.blocks
  /-- It has contents. -/
  contents : b.initialized = true
  /-- It is not code. -/
  data : b.executable = false
  /-- The first word is aligned. -/
  aligned : ctx.image.ptr ∣ address
  /-- It lies in the block. -/
  inside : b.contains address ctx.image.ptr = true
  /-- So does the second. -/
  next : b.contains (address + ctx.image.ptr) ctx.image.ptr = true
  /-- The loader leaves the first word alone. -/
  plain : ctx.image.relocationAt? address = none
  /-- It is zero. -/
  zero : ctx.image.readInt address ctx.image.ptr true = .ok (some 0)
  /-- The second word is a pointer to the class. -/
  refers : ctx.image.resolve (address + ctx.image.ptr) = .ok (some t.address)

/-- There is a plain header at `address`, and the start of its group is looked for in its block. -/
def Locatable (ctx : Context) (t : TypeInfo) (most : Nat) (address : Int) : Prop :=
  ∃ b, t.PlainHeader ctx b address ∧ ¬ ctx.Overruns most b address

/-- The vtable `v` of the class is known to have its primary header at `address`. -/
def HasHeader (ctx : Context) (t : TypeInfo) (known : Knowledge) (address : Int) (v : Vtable) :
    Prop :=
  ∃ start g primary, t.Parsed ctx known start g v ∧ v.primary? = some primary ∧
    primary.header = address

/-- A slot follows the primary header at `address`. -/
def SlotFollows (ctx : Context) (t : TypeInfo) (known : Knowledge) (address : Int) : Prop :=
  ∃ g : Group, g.owner = t ∧ ctx.image.blockAt? address = some g.block ∧
    (g.secondaries = true ↔ ctx.Branches known t) ∧
    ¬ g.RunEnds ctx known none (address + 2 * ctx.image.ptr)

variable {ctx : Context} {t : TypeInfo} {known : Knowledge} {b : Block} {address : Int} {v : Vtable}

/-- The first table of a vtable that is read. -/
theorem Parsed.tableAt {g : Group} {primary : SubTable} (parsed : t.Parsed ctx known address g v)
    (first : v.primary? = some primary) : g.TableAt ctx known false address primary := by
  obtain ⟨rest, split⟩ := List.head?_eq_some_iff.mp first
  have follow := parsed.follow
  rw [split] at follow
  cases follow with
  | table clear stands rest => exact stands

/-- The group of a plain header starts in its block, unless the start is looked for before it. -/
theorem PlainHeader.start_le (header : t.PlainHeader ctx b address) (tidy : ctx.image.Tidy)
    {most n : Nat} (few : n ≤ most)
    (offsets : ∀ i < n, ∃ value, ctx.OffsetBefore (address - ctx.image.ptr * i) value)
    (last : n < most → ∀ value, ¬ ctx.OffsetBefore (address - ctx.image.ptr * n) value) :
    b.start ≤ address - ctx.image.ptr * n ↔ ¬ ctx.Overruns most b address := by
  have positive := ctx.image.ptr_pos
  constructor
  · rintro inside ⟨m, less, place, all⟩
    have beyond : m < n := by
      by_contra not
      obtain ⟨value, offset⟩ := all n (Nat.not_lt.mp not)
      exact last (by omega) value offset
    have words := (Int.mul_lt_mul_left positive).mpr (Int.ofNat_lt.mpr beyond)
    omega
  · intro within
    by_contra outside
    obtain ⟨starts, -⟩ := (b.contains_iff _ _).mp header.inside
    -- the last word on the way back that lies in the block has number `m`
    obtain ⟨m, below, above⟩ : ∃ m : Nat, ctx.image.ptr * m ≤ address - b.start ∧
        address - b.start < ctx.image.ptr * m + ctx.image.ptr := by
      refine ⟨((address - b.start) / ctx.image.ptr).toNat, ?_⟩
      have quotient := Int.ediv_nonneg (by omega : 0 ≤ address - b.start) (Int.le_of_lt positive)
      have split := Int.mul_ediv_add_emod (address - b.start) ctx.image.ptr
      have nonneg := Int.emod_nonneg (address - b.start) (ne_of_gt positive)
      have less := Int.emod_lt_of_pos (address - b.start) positive
      rw [Int.toNat_of_nonneg quotient]
      omega
    have less : m < n := by
      by_contra not
      have words := (Int.mul_le_mul_left positive).mpr (Int.ofNat_le.mpr (Nat.not_lt.mp not))
      omega
    -- the word before it lies in a block that ends where this one starts
    obtain ⟨value, offset⟩ := offsets m less
    obtain ⟨c, found, inside⟩ := Image.blockAt?_of_readInt offset.stored
    rw [c.contains_iff] at inside
    have ends := tidy.stop_le (Image.mem_of_blockAt? found).1 header.member (by omega)
    exact within ⟨m, by omega, by omega, fun i most => offsets i (by omega)⟩

/-- The words of a plain header are a primary header of any group in their block. -/
theorem PlainHeader.headerAt (header : t.PlainHeader ctx b address)
    (zero : ctx.limits.maxOffsetToTop.exceededBy 0 = .ok false) (apart : ctx.OffsetsApart)
    (identified : ctx.Identified t) (secondaries : Bool) (known : Knowledge) :
    (Group.mk t b secondaries).HeaderAt ctx known false address 0 where
  word := ⟨header.inside, header.plain, header.zero, zero⟩
  nonzero never := absurd never Bool.false_ne_true
  refers := by
    refine ⟨header.next, .inr ⟨t.address, header.refers, fun null => ?_, .inl rfl⟩⟩
    -- else the zero word would be the address of the class
    refine apart address 0 0 t header.plain header.zero zero
      (Image.resolve_of_zero header.plain header.zero) ?_
    rw [← null]
    exact identified

/-- A vtable with a plain header is read where its group starts. -/
theorem PlainHeader.hasHeader (header : t.PlainHeader ctx b address) (tidy : ctx.image.Tidy)
    {most n : Nat} (whole : ctx.limits.maxVcallOffsets = .whole most)
    (zero : ctx.limits.maxOffsetToTop.exceededBy 0 = .ok false) (apart : ctx.OffsetsApart)
    (identified : ctx.Identified t) (few : n ≤ most)
    (offsets : ∀ i < n, ∃ value, ctx.OffsetBefore (address - ctx.image.ptr * i) value)
    (starts : b.start ≤ address - ctx.image.ptr * n) {found : Option Vtable}
    (parsed : ∀ v, found = some v → ∃ g, t.Parsed ctx known (address - ctx.image.ptr * n) g v)
    (detects : t.Detects ctx (address - ctx.image.ptr * n) known found) :
    ∃ v primary, found = some v ∧ v.primary? = some primary ∧ primary.header = address := by
  have here : ctx.image.blockAt? (address - ctx.image.ptr * n) = some b := by
    have covers := (b.contains_iff _ _).mp header.inside
    have positive := ctx.image.ptr_pos
    have nonneg := Int.mul_nonneg (Int.le_of_lt positive) (Int.natCast_nonneg n)
    exact (Image.blockAt?_eq_some_iff tidy).mpr ⟨header.member, starts, by omega⟩
  -- the header follows the offset words in any group of the block
  have heads : ∀ secondaries, ∃ values : List Int, values.length = n ∧
      (Group.mk t b secondaries).Heads ctx known false true (address - ctx.image.ptr * n)
        ⟨address, 0, values⟩ :=
    fun secondaries => Group.heads_of_offsets apart identified
      (header.headerAt zero apart identified secondaries known) offsets starts
      fun never => absurd never.symm Bool.false_ne_true
  cases found with
  | none =>
    obtain ⟨secondaries, empty⟩ := detects.complete rfl b here header.contents
    obtain ⟨values, length, heads⟩ := heads secondaries
    refine absurd ?_ (empty _ most heads (by rw [whole]; rfl))
    rw [length]
    exact Int.ofNat_le.mpr few
  | some v =>
    obtain ⟨⟨owner, block, secondaries⟩, parsed⟩ := parsed v rfl
    obtain rfl : owner = t := parsed.owner
    obtain rfl : block = b := Option.some.inj (parsed.block.symm.trans here)
    obtain ⟨primary, rest, split⟩ := List.exists_cons_of_ne_nil parsed.nonempty
    have first : v.primary? = some primary := by
      rw [Vtable.primary?, split, List.head?_cons]
    obtain ⟨values, -, heads⟩ := heads secondaries
    have same := (parsed.tableAt first).heads.unique heads
    exact ⟨v, primary, rfl, first, congrArg Header.address same⟩

/-- The header of a vtable that was read is plain, if its second word was found as a pointer to the
    class. -/
theorem Parsed.plainHeader {start : Int} {g : Group} {primary : SubTable}
    (parsed : t.Parsed ctx known start g v) (first : v.primary? = some primary)
    (tidy : ctx.image.Tidy) (contents : g.block.initialized = true)
    (aligned : ctx.image.ptr ∣ primary.header)
    (plain : ctx.image.relocationAt? primary.header = none)
    (zero : ctx.image.readInt primary.header ctx.image.ptr true = .ok (some 0))
    (refers : ctx.image.resolve (primary.header + ctx.image.ptr) = .ok (some t.address))
    (data : ctx.image.DataWord (primary.header + ctx.image.ptr)) :
    t.PlainHeader ctx g.block primary.header := by
  have header := (parsed.tableAt first).heads.header
  have member := (Image.mem_of_blockAt? parsed.block).1
  obtain ⟨c, other, covers, nonexec, -⟩ := data
  cases tidy.eq_of_contains member other header.refers.1 covers
  exact ⟨member, contents, nonexec, aligned, header.word.inside, header.refers.1, plain, zero,
    refers⟩

/-- What is found out about the word before a pointer to the class: whether it is a locatable
    header, and the vtable with this header. -/
structure Finds (ctx : Context) (t : TypeInfo) (most : Nat) (address : Int) (known : Knowledge)
    (found : Option Vtable) : Prop where
  /-- Every locatable header leads to a vtable. -/
  none : found = none → ¬ t.Locatable ctx most address
  /-- Only locatable headers do. -/
  some : ∀ v, found = some v → t.Locatable ctx most address ∧ t.HasHeader ctx known address v

theorem finds_none {most : Nat} (not : ¬ t.Locatable ctx most address) :
    t.Finds ctx most address known none :=
  ⟨fun _ => not, fun _ found => by cases found⟩

/-- **Exactly the locatable headers lead to a vtable**, among the words before pointers to the
    class. -/
theorem vtableWithHeader?_settles (tidy : ctx.image.Tidy) (readable : ctx.image.order.Known)
    (fit : ctx.limits.Fit) {most : Nat} (whole : ctx.limits.maxVcallOffsets = .whole most)
    (zero : ctx.limits.maxOffsetToTop.exceededBy 0 = .ok false) (apart : ctx.OffsetsApart)
    (identified : ctx.Identified t) (aligned : ctx.image.ptr ∣ address)
    (refers : ctx.image.resolve (address + ctx.image.ptr) = .ok (some t.address))
    (data : ctx.image.DataWord (address + ctx.image.ptr)) :
    Settles ctx (t.Finds ctx most address) (t.vtableWithHeader? ctx address) := by
  unfold vtableWithHeader?
  -- First the tests on the word itself: it is not relocated, and zero.
  refine .ite (fun relocated => .pure fun _ => finds_none ?_) fun plain => ?_
  · rintro ⟨b, header, -⟩
    rw [header.plain] at relocated
    cases relocated
  rw [Bool.not_eq_true, Option.isSome_eq_false_iff, Option.isNone_iff_eq_none] at plain
  refine (Settles.lift _).bind fun word read => ?_
  obtain ⟨_, read⟩ := read
  refine .ite (fun other => .pure fun _ _ => finds_none ?_) fun isZero => ?_
  · rintro ⟨b, header, -⟩
    cases read.symm.trans header.zero
    exact other rfl
  obtain rfl := not_not.mp isZero
  refine (Settles.lift _).bind fun count counted => ?_
  obtain ⟨_, counted⟩ := counted
  rw [whole] at counted
  cases counted
  refine (Settles.lift _).bind fun start walked => ?_
  obtain ⟨_, walked⟩ := walked
  -- Then the walk back to the start of the group, where the vtable is read.
  obtain ⟨n, few, back, offsets, last⟩ :=
    Context.groupStart_spec readable fit (most : Int).toNat address
  cases walked.symm.trans back
  rw [Int.toNat_natCast] at few last
  refine ((vtableAt?_settles identified _).and (vtableAt?_detects identified _)).bind
    fun found _ => .pure ?_
  rintro known ⟨parsed, detects⟩ - - -
  constructor
  · rintro none ⟨b, header, inside⟩
    -- The start is in the block of the header, so the header is the one that is found from there.
    have starts := (header.start_le tidy few offsets last).mpr inside
    obtain ⟨v, primary, rfl, first, same⟩ :=
      header.hasHeader tidy whole zero apart identified few offsets starts parsed detects
    rw [Option.filter_some, if_pos] at none
    · cases none
    · rw [first, Option.any_some, beq_iff_eq]
      exact same
  · intro v kept
    obtain ⟨rfl, named⟩ := Option.filter_eq_some_iff.mp kept
    obtain ⟨g, parsed⟩ := parsed v rfl
    obtain ⟨primary, first, same⟩ := (Option.any_eq_true ..).mp named
    obtain rfl := beq_iff_eq.mp same
    -- The vtable was read in a block with contents, which is the block of its header.
    obtain ⟨b, here, contents⟩ := detects.contents v rfl
    cases parsed.block.symm.trans here
    have header := parsed.plainHeader first tidy contents aligned plain read refers data
    have covers := (Image.mem_of_blockAt? parsed.block).2
    refine ⟨⟨g.block, header, ?_⟩, _, g, primary, parsed, first, rfl⟩
    exact (header.start_le tidy few offsets last).mp covers.1

/-- A slot follows the header of a vtable that was read exactly if its primary table has slots. -/
theorem HasHeader.slots_iff (has : t.HasHeader ctx known address v) (tidy : ctx.image.Tidy) :
    v.primary?.any (!·.slots.isEmpty) = true ↔ t.SlotFollows ctx known address := by
  obtain ⟨start, g, primary, parsed, first, rfl⟩ := has
  have stands := parsed.tableAt first
  have here : ctx.image.blockAt? primary.header = some g.block := by
    have inside : g.block.contains primary.header ctx.image.ptr = true :=
      stands.heads.header.word.inside
    have positive := ctx.image.ptr_pos
    rw [g.block.contains_iff] at inside
    exact (Image.blockAt?_eq_some_iff tidy).mpr
      ⟨(Image.mem_of_blockAt? parsed.block).1, inside.1, by omega⟩
  have run := stands.run
  rw [stands.point] at run
  rw [first, Option.any_some, Bool.not_eq_true', List.isEmpty_eq_false_iff]
  constructor
  · intro slots
    cases listed : primary.slots with
    | nil => exact absurd listed slots
    | cons s rest =>
      rw [listed] at run
      cases run with
      | slot _ goes _ => exact ⟨g, parsed.owner, here, parsed.secondaries, goes⟩
  · rintro ⟨⟨owner, block, secondaries⟩, owned, there, branches, goes⟩ empty
    -- The group of the slot is that of the vtable, since both are determined by the class and the
    -- header.
    obtain ⟨owner', block', secondaries'⟩ := g
    obtain rfl : owner = owner' := owned.trans parsed.owner.symm
    obtain rfl : block = block' := Option.some.inj (there.symm.trans here)
    obtain rfl : secondaries = secondaries' :=
      Bool.eq_iff_iff.mpr (branches.trans parsed.secondaries.symm)
    rw [empty] at run
    cases run with
    | ends ends => exact goes ends

/-! ### The choice of a header -/

/-- The vtable that the lookup chooses, when the vtables of all locatable headers are known. -/
inductive Chosen (ctx : Context) (t : TypeInfo) (most : Nat) (known : Knowledge) : Vtable → Prop
  /-- There is no locatable header. -/
  | missing (none : ∀ h, ¬ t.Locatable ctx most h) : Chosen ctx t most known .missing
  /-- The lowest locatable header with a slot is chosen. -/
  | slots {h : Int} {v : Vtable} (locatable : t.Locatable ctx most h)
    (has : t.HasHeader ctx known h v) (follows : t.SlotFollows ctx known h)
    (lowest : ∀ h' < h, t.Locatable ctx most h' → ¬ t.SlotFollows ctx known h') :
    Chosen ctx t most known v
  /-- None has slots, and the lowest is chosen. -/
  | bare {h : Int} {v : Vtable} (locatable : t.Locatable ctx most h)
    (has : t.HasHeader ctx known h v)
    (lowest : ∀ h', t.Locatable ctx most h' → ¬ t.SlotFollows ctx known h' ∧ h ≤ h') :
    Chosen ctx t most known v

/-- A vtable is missing only if there is no locatable header. -/
theorem Chosen.eq_missing_iff {most : Nat} (chosen : t.Chosen ctx most known v) :
    v = .missing ↔ ∀ h, ¬ t.Locatable ctx most h := by
  have present : ∀ {h v}, t.HasHeader ctx known h v → v ≠ .missing := by
    rintro h v ⟨_, _, _, parsed, -, -⟩ rfl
    exact parsed.nonempty rfl
  cases chosen with
  | missing none => exact iff_of_true rfl none
  | slots locatable has => exact iff_of_false (present has) fun none => none _ locatable
  | bare locatable has => exact iff_of_false (present has) fun none => none _ locatable

/-- The headers `front` were tried: no locatable one has slots, and the `fallback` is the vtable of
    the lowest. -/
structure Tried (ctx : Context) (t : TypeInfo) (most : Nat) (known : Knowledge) (front : List Int)
    (fallback : Option Vtable) : Prop where
  /-- None has slots. -/
  bare : ∀ h ∈ front, t.Locatable ctx most h → ¬ t.SlotFollows ctx known h
  /-- Without a fallback there is none. -/
  none : fallback = none → ∀ h ∈ front, ¬ t.Locatable ctx most h
  /-- The fallback is that of the lowest. -/
  lowest : ∀ w, fallback = some w → ∃ h ∈ front, t.Locatable ctx most h ∧
    t.HasHeader ctx known h w ∧ ∀ h' ∈ front, t.Locatable ctx most h' → h ≤ h'

namespace Tried

variable {most : Nat} {front : List Int} {fallback : Option Vtable} {h : Int}

theorem nil : t.Tried ctx most known [] Option.none where
  bare := List.forall_mem_nil _
  none _ := List.forall_mem_nil _
  lowest _ found := by cases found

/-- A word that is no locatable header changes nothing. -/
theorem skip (tried : t.Tried ctx most known front fallback) (not : ¬ t.Locatable ctx most h) :
    t.Tried ctx most known (front ++ [h]) fallback where
  bare := List.forall_mem_append.mpr
    ⟨tried.bare, List.forall_mem_singleton.mpr fun locatable => absurd locatable not⟩
  none empty := List.forall_mem_append.mpr ⟨tried.none empty, List.forall_mem_singleton.mpr not⟩
  lowest w found := by
    obtain ⟨low, member, locatable, has, least⟩ := tried.lowest w found
    refine ⟨low, List.mem_append_left _ member, locatable, has, ?_⟩
    exact List.forall_mem_append.mpr
      ⟨least, List.forall_mem_singleton.mpr fun locatable => absurd locatable not⟩

/-- A locatable header without slots becomes the fallback if there was none. -/
theorem keep (tried : t.Tried ctx most known front fallback) (above : ∀ h' ∈ front, h' < h)
    (locatable : t.Locatable ctx most h) (has : t.HasHeader ctx known h v)
    (bare : ¬ t.SlotFollows ctx known h) :
    t.Tried ctx most known (front ++ [h]) (fallback.or (some v)) where
  bare := List.forall_mem_append.mpr ⟨tried.bare, List.forall_mem_singleton.mpr fun _ => bare⟩
  none empty := by cases fallback <;> cases empty
  lowest w found := by
    -- An earlier fallback stays; it is lower, since headers are tried in ascending order.
    rcases Option.or_eq_some_iff.mp found with before | ⟨first, now⟩
    · obtain ⟨low, member, first, known, least⟩ := tried.lowest w before
      refine ⟨low, List.mem_append_left _ member, first, known, ?_⟩
      exact List.forall_mem_append.mpr
        ⟨least, List.forall_mem_singleton.mpr fun _ => Int.le_of_lt (above low member)⟩
    · cases now
      refine ⟨h, List.mem_append_right _ (List.mem_singleton_self h), locatable, has, ?_⟩
      refine List.forall_mem_append.mpr ⟨fun h' member also => ?_, ?_⟩
      · exact absurd also (tried.none first h' member)
      · exact List.forall_mem_singleton.mpr fun _ => Int.le_refl h

/-- When all locatable headers were tried, the fallback is chosen. -/
theorem chosen (tried : t.Tried ctx most known front fallback)
    (all : ∀ h, t.Locatable ctx most h → h ∈ front) :
    t.Chosen ctx most known (fallback.getD .missing) := by
  cases fallback with
  | none => exact .missing fun h locatable => tried.none rfl h (all h locatable) locatable
  | some w =>
    obtain ⟨low, member, locatable, has, least⟩ := tried.lowest w rfl
    refine .bare locatable has fun h' also => ?_
    exact ⟨tried.bare h' (all h' also) also, least h' (all h' also) also⟩

end Tried

/-- **The lowest header with slots is chosen, or else the lowest**, by induction on the references
    that are left. -/
theorem bestVtable_settles (tidy : ctx.image.Tidy) (readable : ctx.image.order.Known)
    (fit : ctx.limits.Fit) {most : Nat} (whole : ctx.limits.maxVcallOffsets = .whole most)
    (zero : ctx.limits.maxOffsetToTop.exceededBy 0 = .ok false) (apart : ctx.OffsetsApart)
    (identified : ctx.Identified t) {references : List Int}
    (found : ∀ r ∈ references, ctx.image.ptr ∣ r ∧
      ctx.image.resolve r = .ok (some t.address) ∧ ctx.image.DataWord r)
    (fallback : Option Vtable) :
    Settles ctx (fun known best => ∀ front,
        (front ++ references.map (· - ctx.image.ptr)).Pairwise (· < ·) →
        (∀ h, t.Locatable ctx most h → h ∈ front ++ references.map (· - ctx.image.ptr)) →
        t.Tried ctx most known front fallback → t.Chosen ctx most known (best.getD .missing))
      (t.bestVtable ctx fallback references) := by
  induction references generalizing fallback with
  | nil =>
    refine .pure fun known front _ all tried => tried.chosen fun h locatable => ?_
    have member := all h locatable
    rwa [List.map_nil, List.append_nil] at member
  | cons r rest ih =>
    obtain ⟨⟨aligned, refers, data⟩, others⟩ := List.forall_mem_cons.mp found
    have finds : Settles ctx (t.Finds ctx most (r - ctx.image.ptr))
        (t.vtableWithHeader? ctx (r - ctx.image.ptr)) := by
      rw [show r = r - ctx.image.ptr + ctx.image.ptr by omega] at refers data
      exact vtableWithHeader?_settles tidy readable fit whole zero apart identified
        (Int.dvd_sub aligned (Int.dvd_refl _)) refers data
    -- the header of the reference goes over to those that were tried
    have tries : ∀ front, front ++ (r :: rest).map (· - ctx.image.ptr) =
        front ++ [r - ctx.image.ptr] ++ rest.map (· - ctx.image.ptr) :=
      fun front => List.append_cons ..
    rw [bestVtable]
    refine finds.bind fun vtable _ => ?_
    cases vtable with
    | none =>
      refine (ih others fallback).mono fun known best chosen finds front sorted all tried => ?_
      rw [tries] at sorted all
      exact chosen _ sorted all (tried.skip (finds.none rfl))
    | some v =>
      refine .ite (fun slots => ?_) fun bare => ?_
      · refine .pure fun known finds front sorted all tried => ?_
        obtain ⟨locatable, has⟩ := finds.some v rfl
        refine .slots locatable has ((has.slots_iff tidy).mp slots) fun h' below also => ?_
        rcases List.mem_append.mp (all h' also) with before | after
        · exact tried.bare h' before also
        · -- the headers that are left are not lower
          obtain ⟨-, later, -⟩ := List.pairwise_append.mp sorted
          rcases List.mem_cons.mp after with rfl | rest
          · exact absurd below (Int.lt_irrefl _)
          · have above := (List.pairwise_cons.mp later).1 h' rest
            exact absurd below (Int.not_lt.mpr (Int.le_of_lt above))
      · refine (ih others (fallback.or (some v))).mono
          fun known best chosen finds front sorted all tried => ?_
        obtain ⟨locatable, has⟩ := finds.some v rfl
        obtain ⟨-, -, above⟩ := List.pairwise_append.mp sorted
        rw [tries] at sorted all
        exact chosen _ sorted all (tried.keep (fun h' member => above h' member _
          (List.mem_cons_self ..)) locatable has (mt (has.slots_iff tidy).mpr bare))

end TypeInfo

/-! ### Sessions -/

namespace Session

/-- **The lookup of a vtable that no symbol names is exact.**  If the vtable symbol of a class of a
    well-formed hierarchy leads to no vtable, the answer is the vtable of the lowest locatable
    header that a slot follows, or else of the lowest locatable header; it is missing only if there
    is none.  Plain headers are locatable unless their block starts where another ends. -/
theorem lookup_exact (image : Image) (demangle : Demangler) (limits : Limits) (detector : Detector)
    (listing : Listing) (queries : List Query) (t : TypeInfo) (most : Nat) :
    let s := (start image demangle limits detector listing).after queries
    let ctx := s.context
    ctx.Identified t → t.address < ctx.image.width.span → ctx.image.Tidy →
    ctx.image.order.Known → ctx.cancelled = false → ctx.limits.Fit →
    ctx.limits.maxVcallOffsets = .whole most →
    ctx.limits.maxOffsetToTop.exceededBy 0 = .ok false → ctx.OffsetsApart →
    (ctx.graph s.known).WellFormed t →
    (∀ v after, t.vtableBySymbol? ctx s.known ≠ .ok (some v) after) →
    (∃ v after, t.locateVtable ctx s.known = .ok v after ∧ t.Chosen ctx most after v ∧
      (v = .missing ↔ ∀ h, ¬ t.Locatable ctx most h)) ∧
    ∀ h b, t.PlainHeader ctx b h → t.Locatable ctx most h ∨
      ctx.Overruns most b h ∧ ∃ c ∈ ctx.image.blocks, c.stop = b.start := by
  intro s ctx identified reach tidy readable running fit whole zero apart wellFormed unnamed
  have draws : ctx.Draws (ctx.graph s.known) s.known :=
    (after_leads (grounded_start image demangle limits detector listing) queries).1.draws
  have tolerates : ctx.Tolerates fun _ => False := ctx.tolerates readable running fit _
  have sim := wellFormed.locating tolerates
  constructor
  · have located : Alike (.within (ctx.Draws (ctx.graph s.known)) fun _ => False) _
        (t.locateVtable ctx) (t.locateVtable ctx) :=
      sim.locateVtable ⟨identified, .refl⟩ (.inr reach)
    have named : Alike (.within (ctx.Draws (ctx.graph s.known)) fun _ => False) _
        (t.vtableBySymbol? ctx) (t.vtableBySymbol? ctx) :=
      sim.vtableBySymbol? ⟨identified, .refl⟩
    obtain ⟨v, after, answered, -, -⟩ := located.answered draws
    obtain ⟨found, middle, asked, -, still⟩ := named.answered draws
    suffices chosen : t.Chosen ctx most after v from
      ⟨v, after, answered, chosen, chosen.eq_missing_iff⟩
    cases found with
    | some w => exact absurd asked (unnamed w middle)
    | none =>
      -- the words that point to the class are searched for, in increasing order
      rw [TypeInfo.locateVtable, bind_ok asked] at answered
      obtain ⟨references, search, sorted, members⟩ :=
        Image.findReferences_spec tidy readable reach (ne_of_gt ctx.image.ptr_pos)
      obtain ⟨_, _, searched, answered⟩ := of_bind_ok answered
      rw [running, search] at searched
      cases searched
      obtain ⟨best, _, chosen, made⟩ := of_bind_ok answered
      cases made
      have pointers : ∀ r ∈ references, ctx.image.ptr ∣ r ∧
          ctx.image.resolve r = .ok (some t.address) ∧ ctx.image.DataWord r := by
        intro r member
        obtain ⟨aligned, rest⟩ := (members r).mp member
        exact ⟨Int.dvd_of_emod_eq_zero aligned, rest⟩
      refine (TypeInfo.bestVtable_settles tidy readable fit whole zero apart identified pointers
        none).now still.grounded chosen [] ?_ (fun h locatable => ?_) .nil
      · rw [List.nil_append, List.pairwise_map]
        exact sorted.imp fun less => by omega
      · obtain ⟨b, header, -⟩ := locatable
        have inside := (b.contains_iff _ _).mp header.next
        have positive := ctx.image.ptr_pos
        refine List.mem_map.mpr ⟨h + ctx.image.ptr, (members _).mpr ⟨?_, header.refers, ?_⟩, ?_⟩
        · exact Int.emod_eq_zero_of_dvd (Int.dvd_add header.aligned (Int.dvd_refl _))
        · exact ⟨b, header.member, ⟨inside.1, by omega⟩, header.data, .inl header.contents⟩
        · omega
  · intro h b header
    by_cases overruns : ctx.Overruns most b h
    · exact .inr ⟨overruns, overruns.touches tidy header.member⟩
    · exact .inl ⟨b, header, overruns⟩

end Session

/-- A constant that stands right before the data. -/
def Block.sampleConstant : Block where
  name := ".rodata"
  start := 0x3ffffc
  data := ⟨(([5] : List Nat).flatMap (littleBytes 4)).toArray⟩
  size := 4

/-- The data of a program without symbols for vtables: the vtables of two classes with a function
    each, then the type_info of the classes after 24 and 32 bytes. -/
def Block.sampleUnnamed : Block where
  name := ".data"
  start := 0x400000
  data := ⟨(([0, 0x400018, 0x600000, 0, 0x400020, 0x600000, 0x500008, 0, 0x500008, 0] :
      List Nat).flatMap (littleBytes 4)).toArray⟩
  size := 40

/-- The program with these classes. -/
def Image.sampleUnnamed : Image :=
  { Image.sampleRepeated with
    blocks := [.sampleConstant, .sampleUnnamed, .sampleCode]
    ordered := by decide }

namespace Session

/-- A session about that program. -/
def sampleUnnamed : Session :=
  start .sampleUnnamed (fun _ => none) {} (.ofTable []) []

/-- The first class has a plain header at the start of the data. -/
theorem plainHeader_sampleUnnamed :
    TypeInfo.PlainHeader sampleUnnamed.context ⟨0x400018, .simple⟩ .sampleUnnamed 0x400000 where
  member := List.mem_cons_of_mem _ (List.mem_cons_self ..)
  contents := by decide
  data := by decide
  aligned := by decide
  inside := by decide
  next := by decide
  plain := by decide +kernel
  zero := by decide +kernel
  refers := by decide +kernel

/-- The lookup finds the vtable of the second class.  That of the first is missing in spite of its
    plain header, since the constant before the data is taken for an offset word. -/
theorem lookup_exact_sampleUnnamed :
    (∃ v after, TypeInfo.locateVtable sampleUnnamed.context ⟨0x400020, .simple⟩
        sampleUnnamed.known = .ok v after ∧
      TypeInfo.Chosen sampleUnnamed.context ⟨0x400020, .simple⟩ 64 after v ∧
      v.address = 0x40000c) ∧
    (∃ after, TypeInfo.locateVtable sampleUnnamed.context ⟨0x400018, .simple⟩
      sampleUnnamed.known = .ok .missing after) ∧
    TypeInfo.PlainHeader sampleUnnamed.context ⟨0x400018, .simple⟩ .sampleUnnamed 0x400000 ∧
    sampleUnnamed.context.Overruns 64 .sampleUnnamed 0x400000 := by
  have identified : sampleUnnamed.context.Identified ⟨0x400018, .simple⟩ ∧
      sampleUnnamed.context.Identified ⟨0x400020, .simple⟩ := by
    unfold Context.Identified
    decide +kernel
  have tidy : sampleUnnamed.context.image.Tidy := by decide +kernel
  have limit : sampleUnnamed.context.limits.maxOffsetToTop = .whole (0x100000 : Nat) := rfl
  have apart : sampleUnnamed.context.OffsetsApart :=
    Context.offsetsApart_of_places limit (by decide +kernel)
  have closed : (sampleUnnamed.context.graph sampleUnnamed.known).closed
      [⟨0x400018, .simple⟩, ⟨0x400020, .simple⟩] = true := by decide +kernel
  -- All that has to be run is run once, and the theorem is applied to what comes out.
  have answers : (TypeInfo.vtableBySymbol? sampleUnnamed.context ⟨0x400018, .simple⟩).run'
        sampleUnnamed.known = some none ∧
      (TypeInfo.vtableBySymbol? sampleUnnamed.context ⟨0x400020, .simple⟩).run'
        sampleUnnamed.known = some none ∧
      (TypeInfo.locateVtable sampleUnnamed.context ⟨0x400018, .simple⟩).run'
        sampleUnnamed.known = some .missing ∧
      ((TypeInfo.locateVtable sampleUnnamed.context ⟨0x400020, .simple⟩).run'
        sampleUnnamed.known).map (·.address) = some 0x40000c := by decide +kernel
  have unnamed : ∀ {t v after}, (TypeInfo.vtableBySymbol? sampleUnnamed.context t).run'
      sampleUnnamed.known = some none →
      TypeInfo.vtableBySymbol? sampleUnnamed.context t sampleUnnamed.known ≠
        .ok (some v) after := by
    intro t v after none found
    cases none.symm.trans (run'_eq_some_iff.mpr ⟨after, found⟩)
  have exact := fun t => lookup_exact .sampleUnnamed (fun _ => none) {} (.ofTable []) [] [] t 64
  simp only [after_nil] at exact
  obtain ⟨⟨v, after, answered, -, missing⟩, plain⟩ := exact ⟨0x400018, .simple⟩ identified.1
    (by decide) tidy trivial rfl Limits.fit_default rfl rfl apart
    (BaseGraph.wellFormed_of_closed closed (List.mem_cons_self ..))
    fun v after => unnamed answers.1
  obtain ⟨⟨w, last, located, chosen, -⟩, -⟩ := exact ⟨0x400020, .simple⟩ identified.2
    (by decide) tidy trivial rfl Limits.fit_default rfl rfl apart
    (BaseGraph.wellFormed_of_closed closed (List.mem_cons_of_mem _ (List.mem_cons_self ..)))
    fun v after => unnamed answers.2.1
  have nothing : (TypeInfo.locateVtable sampleUnnamed.context ⟨0x400018, .simple⟩).run'
      sampleUnnamed.known = some v := run'_eq_some_iff.mpr ⟨after, answered⟩
  have something : (TypeInfo.locateVtable sampleUnnamed.context ⟨0x400020, .simple⟩).run'
      sampleUnnamed.known = some w := run'_eq_some_iff.mpr ⟨last, located⟩
  rw [nothing, something] at answers
  obtain ⟨-, -, same, address⟩ := answers
  obtain rfl := Option.some.inj same
  refine ⟨⟨w, last, located, chosen, Option.some.inj address⟩, ⟨after, answered⟩,
    plainHeader_sampleUnnamed, ?_⟩
  rcases plain 0x400000 .sampleUnnamed plainHeader_sampleUnnamed with locatable | ⟨overruns, -⟩
  · exact absurd locatable (missing.mp rfl _)
  · exact overruns

end Session

end ItaniumRtti
