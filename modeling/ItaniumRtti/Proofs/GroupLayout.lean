import ItaniumRtti.Proofs.Layout
import ItaniumRtti.Proofs.Recover

namespace ItaniumRtti

/-!
# Groups of tables are read as they were laid out

Nothing records how long tables are; headers, offset words and slots are told apart by their
values and by what follows them.

* `Context.Small`, `Context.IsOffset`, `Context.IsSlot` — what words can be told to be;
* `Context.Legible` — a table whose words can be told apart;
* `Group.headerOf?_layout` — its header is found after its offset words;
* `Group.slotAt?_layout`, `Group.slotAt?_next` — a slot is read, and the next table ends the run;
* `Group.tablesFrom_layouts` — the tables of a group are read as they were laid out.
-/

open Recover

/-! ### Kinds of words -/

/-- Only greater numbers exceed a bound. -/
theorem Bound.not_exceeded_of_le {bound : Bound} {m n : Int} (least : m ≤ n)
    (fits : bound.exceededBy n = .ok false) : bound.exceededBy m = .ok false := by
  cases bound with
  | whole most =>
    simp only [exceededBy, Except.ok.injEq, decide_eq_false_iff_not] at fits ⊢
    omega
  | unfit => cases fits
  | real x =>
    -- Only a finite bound is compared with the number.
    cases x with
    | infinite negative => exact fits
    | nan => rfl
    | finite negative mantissa exponent =>
      simp only [exceededBy, Except.ok.injEq] at fits ⊢
      cases floor : (Real64.finite negative mantissa exponent).floor? with
      | none => rfl
      | some value =>
        simp only [floor, Option.any_some, decide_eq_false_iff_not] at fits ⊢
        omega

namespace Context

variable (ctx : Context)

/-- The word can be an offset: its magnitude is within the limit. -/
def Small (w : ctx.image.width.Word) : Prop :=
  ctx.limits.maxOffsetToTop.exceededBy w.toInt.natAbs = .ok false

/-- The word cannot be an offset: its magnitude is above the limit. -/
def Large (w : ctx.image.width.Word) : Prop :=
  ctx.limits.maxOffsetToTop.exceededBy w.toInt.natAbs = .ok true

/-- The word is the address of a function, of code or of the function that stands for pure virtual
    ones. -/
def IsTarget (w : ctx.image.width.Word) : Prop :=
  ctx.image.isCode w.toNat = true ∨ (ctx.image.functionAt? w.toNat).isSome = true ∨
    ctx.roots.pureAddress = some (w.toNat : Int)

/-- The word is the address of the class `owner`, or of another class. -/
def IsClass (owner : TypeInfo) (w : ctx.image.width.Word) : Prop :=
  owner.address = w.toNat ∨ ∃ t, ctx.roots.identify ctx.image w.toNat = .ok (some t)

/-- The word can be an offset and nothing else. -/
structure IsOffset (owner : TypeInfo) (w : ctx.image.width.Word) : Prop where
  /-- It can be an offset. -/
  small : ctx.Small w
  /-- It is no target of a slot. -/
  target : ¬ ctx.IsTarget w
  /-- It is not the address of the class. -/
  other : owner.address ≠ w.toNat
  /-- It is not the address of another class. -/
  type : ctx.roots.identify ctx.image w.toNat = .ok none

/-- The word can be a slot and nothing else. -/
structure IsSlot (w : ctx.image.width.Word) : Prop where
  /-- It cannot be an offset. -/
  large : ctx.Large w
  /-- It is the target of a slot. -/
  target : ctx.IsTarget w

instance (w : ctx.image.width.Word) : Decidable (ctx.Small w) :=
  decidable_of_iff
    ((ctx.limits.maxOffsetToTop.exceededBy w.toInt.natAbs).toOption == some false)
    (beq_iff_eq.trans toOption_eq_some_iff)

instance (w : ctx.image.width.Word) : Decidable (ctx.Large w) :=
  decidable_of_iff
    ((ctx.limits.maxOffsetToTop.exceededBy w.toInt.natAbs).toOption == some true)
    (beq_iff_eq.trans toOption_eq_some_iff)

instance (w : ctx.image.width.Word) : Decidable (ctx.IsTarget w) :=
  inferInstanceAs (Decidable (_ ∨ _ ∨ _))

instance (owner : TypeInfo) (w : ctx.image.width.Word) : Decidable (ctx.IsClass owner w) :=
  decidable_of_iff (owner.address = w.toNat ∨
      (ctx.roots.identify ctx.image w.toNat).toOption.join.isSome = true) <| by
    simp only [IsClass, Option.isSome_iff_exists, Option.join_eq_some_iff, toOption_eq_some_iff]

instance (w : ctx.image.width.Word) : Decidable (ctx.IsSlot w) :=
  decidable_of_iff (ctx.Large w ∧ ctx.IsTarget w)
    ⟨fun h => ⟨h.1, h.2⟩, fun h => ⟨h.large, h.target⟩⟩

/-- The words of a table of the class `owner` with type_info at `word` can be told apart. -/
structure Legible (owner : TypeInfo) (word : ctx.image.width.Word)
    (l : TableLayout ctx.image.width) : Prop where
  /-- The header refers to the class. -/
  owned : owner.address = word.toNat
  /-- The class does not stand at address zero. -/
  real : word.toNat ≠ 0
  /-- Offsets are nothing else. -/
  offsets : ∀ w ∈ l.offsets, ctx.IsOffset owner w
  /-- There are not too many of them. -/
  vcalls : ∃ most, ctx.limits.maxVcallOffsets = .whole most ∧ (l.vcallOffsets.length : Int) ≤ most
  /-- Slots are nothing else. -/
  slots : ∀ w ∈ l.slots, ctx.IsSlot w

variable {ctx}

/-- If any word can be an offset, then zero can. -/
theorem Small.zero {v w : ctx.image.width.Word} (small : ctx.Small v) (zero : w.toNat = 0) :
    ctx.Small w := by
  have value : w.toInt.natAbs = 0 := by
    rw [BitVec.toInt_eq_toNat_cond, zero]
    split <;> omega
  refine Bound.not_exceeded_of_le ?_ small
  rw [value]
  exact Int.natCast_nonneg _

/-- No slot of the table is zero. -/
theorem Legible.slot_ne_zero {owner : TypeInfo} {word : ctx.image.width.Word}
    {l : TableLayout ctx.image.width} (legible : ctx.Legible owner word l)
    {w : ctx.image.width.Word} (member : w ∈ l.slots) : w.toNat ≠ 0 := by
  intro zero
  have offset : l.offsetToTop ∈ l.offsets :=
    List.mem_append_right l.vcallOffsets (List.mem_singleton.mpr rfl)
  have small : ctx.Small w := (legible.offsets l.offsetToTop offset).small.zero zero
  cases small.symm.trans (legible.slots w member).large

end Context

namespace Group

variable {ctx : Context} {g : Group} {address : Int} {v w : ctx.image.width.Word}

/-! ### Words of headers -/

/-- Whether a word that stands in the block is read as an offset depends on its magnitude only. -/
theorem smallInt_eq (holds : ctx.image.Holds g.block address w) :
    g.smallInt ctx address = (ctx.limits.maxOffsetToTop.exceededBy w.toInt.natAbs).map
      fun large => if large then none else some w.toInt := by
  simp only [smallInt, holds.inside, holds.unrelocated, holds.readInt]
  show (ctx.limits.maxOffsetToTop.exceededBy w.toInt.natAbs >>= fun large =>
    if large then pure none else pure (some w.toInt)) = _
  cases ctx.limits.maxOffsetToTop.exceededBy w.toInt.natAbs with
  | error fault => rfl
  | ok large => cases large <;> rfl

/-- A small word is read as an offset. -/
theorem smallInt_of_small (holds : ctx.image.Holds g.block address w) (small : ctx.Small w) :
    g.smallInt ctx address = .ok (some w.toInt) := by
  rw [smallInt_eq holds, small]
  rfl

/-- A large one is not. -/
theorem smallInt_of_large (holds : ctx.image.Holds g.block address w) (large : ctx.Large w) :
    g.smallInt ctx address = .ok none := by
  rw [smallInt_eq holds, large]
  rfl

/-- Nothing is read outside the block. -/
theorem smallInt_outside (outside : g.block.contains address ctx.image.ptr = false) :
    g.smallInt ctx address = .ok none := by
  rw [smallInt, outside]
  rfl

/-- A word with the owner's address refers to the owner. -/
theorem pointsAtOwner_of_owner (holds : ctx.image.Holds g.block address w)
    (owner : g.owner.address = w.toNat) (nonzero : w.toNat ≠ 0) :
    g.pointsAtOwner ctx address = pure true := by
  simp only [pointsAtOwner, holds.inside, holds.unrelocated, holds.resolve]
  show (if (w.toNat : Int) = 0 then (pure false : Recover Bool) else
    if (w.toNat : Int) = g.owner.address then pure true else _) = _
  rw [if_neg (by omega), if_pos owner.symm]

/-- An offset does not. -/
theorem pointsAtOwner_of_offset (holds : ctx.image.Holds g.block address w)
    (offset : ctx.IsOffset g.owner w) : g.pointsAtOwner ctx address = pure false := by
  simp only [pointsAtOwner, holds.inside, holds.unrelocated, holds.resolve]
  show (if (w.toNat : Int) = 0 then pure false else
    if (w.toNat : Int) = g.owner.address then pure true else
      lift (ctx.roots.identify ctx.image w.toNat) >>= _) = _
  rw [if_neg offset.other.symm, offset.type]
  split <;> rfl

/-- A header begins where an offset stands before the owner's address. -/
theorem offsetAt?_of_header {secondary : Bool} (holds : ctx.image.Holds g.block address w)
    (small : ctx.Small w) (nonzero : secondary = true → w.toInt ≠ 0)
    (next : ctx.image.Holds g.block (address + ctx.image.ptr) v)
    (owner : g.owner.address = v.toNat) (real : v.toNat ≠ 0) :
    g.offsetAt? ctx secondary address = pure (some w.toInt) := by
  rw [offsetAt?, smallInt_of_small holds small]
  show (if (secondary && decide (w.toInt = 0)) = true then pure none else
    g.pointsAtOwner ctx (address + ctx.image.ptr) >>= _) = _
  rw [pointsAtOwner_of_owner next owner real, if_neg]
  · rfl
  · rw [Bool.and_eq_true, decide_eq_true_eq]
    exact fun both => nonzero both.1 both.2

/-- No header begins with an offset before an offset. -/
theorem offsetAt?_of_offset {secondary : Bool} (holds : ctx.image.Holds g.block address w)
    (small : ctx.Small w) (next : ctx.image.Holds g.block (address + ctx.image.ptr) v)
    (offset : ctx.IsOffset g.owner v) : g.offsetAt? ctx secondary address = pure none := by
  rw [offsetAt?, smallInt_of_small holds small]
  show (if (secondary && decide (w.toInt = 0)) = true then pure none else
    g.pointsAtOwner ctx (address + ctx.image.ptr) >>= _) = _
  rw [pointsAtOwner_of_offset next offset]
  split <;> rfl

/-- No header begins with a word that cannot be an offset. -/
theorem offsetAt?_of_none {secondary : Bool} (large : g.smallInt ctx address = .ok none) :
    g.offsetAt? ctx secondary address = pure none := by
  rw [offsetAt?, large]
  rfl

/-! ### Headers -/

variable {owner : ctx.image.width.Word}

/-- No header begins at an offset word: the word after it is an offset too. -/
theorem offsetAt?_of_vcall {secondary first : Bool} {vcalls rest : List ctx.image.width.Word}
    {offset : ctx.image.width.Word}
    (run : ctx.image.HoldsRun g.block first address (v :: (vcalls ++ offset :: rest)))
    (offsets : ∀ w ∈ v :: (vcalls ++ [offset]), ctx.IsOffset g.owner w) :
    g.offsetAt? ctx secondary address = pure none := by
  obtain ⟨here, later⟩ := List.forall_mem_cons.mp offsets
  cases vcalls with
  | nil =>
    have next := later offset (List.mem_singleton.mpr rfl)
    exact offsetAt?_of_offset run.2.1 here.small run.2.2.2.1 next
  | cons n vcalls =>
    exact offsetAt?_of_offset run.2.1 here.small run.2.2.2.1 (later n (List.mem_cons_self ..))

/-- A header is found after fewer than `tries` offset words. -/
theorem headerFrom_layout (owned : g.owner.address = owner.toNat) (real : owner.toNat ≠ 0)
    {secondary first : Bool} {vcalls rest : List ctx.image.width.Word}
    {offset : ctx.image.width.Word} {tries : Nat}
    (run : ctx.image.HoldsRun g.block first address (vcalls ++ offset :: owner :: rest))
    (offsets : ∀ w ∈ vcalls ++ [offset], ctx.IsOffset g.owner w)
    (nonzero : secondary = true → offset.toInt ≠ 0) (enough : vcalls.length < tries) :
    g.headerFrom ctx secondary tries first address =
      pure (some ⟨address + ctx.image.ptr * vcalls.length, offset.toInt,
        vcalls.map (·.toInt)⟩) := by
  -- Each offset word costs one try and is put in front of those found after it.
  induction vcalls generalizing tries first address with
  | nil =>
    obtain ⟨tries, rfl⟩ := Nat.exists_eq_add_one.mpr enough
    have small := (offsets offset (List.mem_singleton.mpr rfl)).small
    have header : g.offsetAt? ctx secondary address = pure (some offset.toInt) :=
      offsetAt?_of_header run.2.1 small nonzero run.2.2.2.1 owned real
    rw [headerFrom, run.unmarked (List.cons_ne_nil _ _), header, add_mul_length_nil]
    rfl
  | cons v vcalls ih =>
    obtain ⟨tries, rfl⟩ := Nat.exists_eq_add_one.mpr (Nat.zero_lt_of_lt enough)
    obtain ⟨here, later⟩ := List.forall_mem_cons.mp offsets
    have found := ih run.2.2 later (by rw [List.length_cons] at enough; omega : _ < tries)
    rw [headerFrom, run.unmarked (List.cons_ne_nil _ _), offsetAt?_of_vcall run offsets]
    show (lift (g.smallInt ctx address) >>= _) = _
    rw [smallInt_of_small run.2.1 here.small]
    show (g.headerFrom ctx secondary tries false (address + ctx.image.ptr) >>= _) = _
    rw [found, mul_length_cons, ← Int.add_assoc]
    rfl

variable {l : TableLayout ctx.image.width} {rest : List ctx.image.width.Word}

/-- **A header is found after its offset words.** -/
theorem headerOf?_layout (legible : ctx.Legible g.owner owner l) {secondary first : Bool}
    (run : ctx.image.HoldsRun g.block first address (l.words owner ++ rest))
    (nonzero : secondary = true → l.offsetToTop.toInt ≠ 0) :
    g.headerOf? ctx secondary address =
      pure (some ⟨address + ctx.image.ptr * l.vcallOffsets.length, l.offsetToTop.toInt,
        l.vcallOffsets.map (·.toInt)⟩) := by
  obtain ⟨most, limit, fewer⟩ := legible.vcalls
  rw [TableLayout.words, List.append_assoc] at run
  rw [headerOf?, limit]
  exact headerFrom_layout legible.owned legible.real run.asFirst legible.offsets nonzero (by omega)

/-- No header is found outside the block. -/
theorem headerOf?_outside (fit : ∃ most, ctx.limits.maxVcallOffsets = .whole most)
    (outside : g.block.contains address ctx.image.ptr = false) (secondary : Bool) :
    g.headerOf? ctx secondary address = pure none := by
  obtain ⟨most, limit⟩ := fit
  have word : g.smallInt ctx address = .ok none := smallInt_outside outside
  rw [headerOf?, limit]
  show g.headerFrom ctx secondary (most + 1).toNat true address = _
  -- The word is neither the start of a header nor an offset word.
  cases (most + 1).toNat with
  | zero => rfl
  | succ tries =>
    rw [headerFrom, offsetAt?_of_none word, word]
    rfl

/-! ### Slots -/

/-- A word without a relocation is compared with the address that stands for pure functions. -/
theorem isPure_word (roots : Roots) (value : Int) :
    roots.isPure (some value) none = decide (roots.pureAddress = some value) := by
  rw [Roots.isPure, Option.isSome_none, Bool.false_and, Bool.false_or, Option.isSome_some,
    Bool.true_and, Bool.eq_iff_iff, beq_iff_eq, decide_eq_true_eq]
  exact eq_comm

/-- What the word `w` is taken for if neither a symbol nor a secondary header ends the run at it. -/
theorem slotAt?_eq {first afterDestructor : Bool}
    (unmarked : (!first && ctx.image.hasSymbolAt address) = false)
    (header : g.offsetAt? ctx true address = pure none)
    (holds : ctx.image.Holds g.block address w) :
    g.slotAt? ctx first afterDestructor address =
      if ctx.roots.pureAddress = some (w.toNat : Int) then
        pure (some { address := some w.toNat, isPure := true })
      else if w.toNat = 0 then
        if afterDestructor = false then pure none
        else if g.secondaries = true then do
          if (← g.headerOf? ctx true address).isSome then return none
          return some {}
        else pure (some {})
      else if (ctx.image.functionAt? w.toNat).isSome = true ∨ ctx.image.isCode w.toNat = true then
        pure (some { address := some w.toNat, function := ctx.image.functionAt? w.toNat })
      else pure none := by
  have word : lift (ctx.image.resolve address) = pure (some (w.toNat : Int)) := by
    rw [holds.resolve]
    rfl
  simp only [slotAt?, unmarked, header, pure_bind, Option.isSome_none, Bool.false_eq_true, if_false,
    holds.unrelocated, word, Option.bind_none, ite_self, isPure_word,
    decide_eq_true_eq, Option.isNone_none, Bool.and_true, Option.some.injEq, Option.bind_some,
    Option.any_some, Option.isNone_some, Bool.false_and, Bool.or_eq_true,
    or_false, Bool.not_eq_true_eq_eq_false, Int.natCast_eq_zero]

/-- A slot is read as such. -/
theorem slotAt?_layout {first afterDestructor : Bool}
    (unmarked : (!first && ctx.image.hasSymbolAt address) = false)
    (holds : ctx.image.Holds g.block address w) (slot : ctx.IsSlot w) (nonzero : w.toNat ≠ 0) :
    g.slotAt? ctx first afterDestructor address = pure (some (ctx.slotOf w)) := by
  -- A slot is too large for an offset, so no header stands there.
  have header : g.offsetAt? ctx true address = pure none :=
    offsetAt?_of_none (smallInt_of_large holds slot.large)
  rw [slotAt?_eq unmarked header holds, Context.slotOf]
  by_cases marker : ctx.roots.pureAddress = some (w.toNat : Int)
  · rw [if_pos marker, if_pos marker]
  · have target : (ctx.image.functionAt? w.toNat).isSome = true ∨
        ctx.image.isCode w.toNat = true := by
      rcases slot.target with code | function | is
      · exact .inr code
      · exact .inl function
      · exact absurd is marker
    rw [if_neg marker, if_neg nonzero, if_pos target, if_neg marker]

/-- A symbol ends a run of slots. -/
theorem slotAt?_symbol {afterDestructor : Bool} (marked : ctx.image.hasSymbolAt address = true) :
    g.slotAt? ctx false afterDestructor address = pure none := by
  simp only [slotAt?, marked, Bool.not_false, Bool.and_self, if_true]

/-- The header of a secondary table ends a run of slots. -/
theorem slotAt?_header {first afterDestructor : Bool} (secondaries : g.secondaries = true)
    {offset : Int} (header : g.offsetAt? ctx true address = pure (some offset)) :
    g.slotAt? ctx first afterDestructor address = pure none := by
  simp only [slotAt?, secondaries, header, pure_bind, Option.isSome_some, if_true, ite_self]

/-- **The next table ends a run of slots.** -/
theorem slotAt?_next (legible : ctx.Legible g.owner owner l) (secondaries : g.secondaries = true)
    (run : ctx.image.HoldsRun g.block false address (l.words owner ++ rest))
    (nonzero : l.offsetToTop.toInt ≠ 0) (afterDestructor : Bool) :
    g.slotAt? ctx false afterDestructor address = pure none := by
  obtain ⟨header, found⟩ : ∃ header, g.headerOf? ctx true address = pure (some header) :=
    ⟨_, headerOf?_layout legible run fun _ => nonzero⟩
  have offsets := legible.offsets
  rw [TableLayout.words, List.append_assoc] at run
  rw [TableLayout.offsets] at offsets
  generalize l.vcallOffsets = vcalls at run offsets
  -- The table starts with its header or with an offset word.
  cases vcalls with
  | nil =>
    have small := (offsets _ (List.mem_singleton.mpr rfl)).small
    exact slotAt?_header secondaries
      (offsetAt?_of_header run.2.1 small (fun _ => nonzero) run.2.2.2.1 legible.owned legible.real)
  | cons v vcalls =>
    -- An offset word is no slot; if it is zero, the header after it tells it from the place of a
    -- missing destructor.
    have here := offsets v (List.mem_cons_self ..)
    have marker : ctx.roots.pureAddress ≠ some (v.toNat : Int) :=
      fun is => here.target (.inr (.inr is))
    have target : ¬ ((ctx.image.functionAt? v.toNat).isSome = true ∨
        ctx.image.isCode v.toNat = true) := by
      rintro (function | code)
      · exact here.target (.inr (.inl function))
      · exact here.target (.inl code)
    rw [slotAt?_eq (run.unmarked (List.cons_ne_nil _ _)) (offsetAt?_of_vcall run offsets) run.2.1,
      if_neg marker, if_neg target, if_pos secondaries, found, pure_bind, Option.isSome_some,
      if_pos rfl, ite_self, ite_self]

/-! ### Runs of slots -/

/-- The run of slots ends at the end of the block and at a symbol. -/
theorem slotsFrom_end (closed : address = g.block.stop ∨ ctx.image.hasSymbolAt address = true)
    (words : Nat) (afterDestructor : Bool) :
    g.slotsFrom ctx words false afterDestructor address = pure [] := by
  cases words with
  | zero => rfl
  | succ words =>
    rw [slotsFrom]
    rcases closed with stop | marked
    · rw [stop, g.block.not_contains_stop ctx.image.ptr_pos]
      rfl
    · rw [slotAt?_symbol marked, pure_bind, ite_self]

/-- The run of slots ends at the next table. -/
theorem slotsFrom_next (legible : ctx.Legible g.owner owner l) (secondaries : g.secondaries = true)
    (run : ctx.image.HoldsRun g.block false address (l.words owner ++ rest))
    (nonzero : l.offsetToTop.toInt ≠ 0) (words : Nat) (afterDestructor : Bool) :
    g.slotsFrom ctx words false afterDestructor address = pure [] := by
  cases words with
  | zero => rfl
  | succ words =>
    rw [slotsFrom, slotAt?_next legible secondaries run nonzero, pure_bind, ite_self]

/-- A run of slots is read up to the place where it ends. -/
theorem slotsFrom_layout {slots : List ctx.image.width.Word} {words : Nat}
    {first afterDestructor : Bool}
    (run : ctx.image.HoldsRun g.block false address (slots ++ rest))
    (good : ∀ w ∈ slots, ctx.IsSlot w ∧ w.toNat ≠ 0) (enough : slots.length ≤ words)
    (occupied : first = true → slots ≠ [])
    (ends : ∀ words afterDestructor, g.slotsFrom ctx words false afterDestructor
      (address + ctx.image.ptr * slots.length) = pure []) :
    g.slotsFrom ctx words first afterDestructor address = pure (slots.map ctx.slotOf) := by
  -- Whether a slot follows a destructor changes along the run, but matters only where it ends.
  induction slots generalizing words first afterDestructor address with
  | nil =>
    have later : first = false := Bool.eq_false_iff.mpr fun is => occupied is rfl
    rw [add_mul_length_nil] at ends
    rw [later, ends]
    rfl
  | cons w slots ih =>
    obtain ⟨words, rfl⟩ := Nat.exists_eq_add_one.mpr (Nat.zero_lt_of_lt enough)
    obtain ⟨⟨slot, nonzero⟩, others⟩ := List.forall_mem_cons.mp good
    have unmarked : (!first && ctx.image.hasSymbolAt address) = false := by
      rw [run.1 rfl, Bool.and_false]
    rw [mul_length_cons, ← Int.add_assoc] at ends
    rw [slotsFrom, run.2.1.inside, slotAt?_layout unmarked run.2.1 slot nonzero]
    show (g.slotsFrom ctx words false _ (address + ctx.image.ptr) >>= _) = _
    rw [ih run.2.2 others (Nat.le_of_succ_le_succ enough) (fun never => Bool.noConfusion never)
      ends]
    rfl

/-- The block has room for the slots of a run. -/
theorem slotsAt_layout {slots : List ctx.image.width.Word}
    (run : ctx.image.HoldsRun g.block false address (slots ++ rest))
    (good : ∀ w ∈ slots, ctx.IsSlot w ∧ w.toNat ≠ 0) (occupied : slots ≠ [])
    (ends : ∀ words afterDestructor, g.slotsFrom ctx words false afterDestructor
      (address + ctx.image.ptr * slots.length) = pure []) :
    g.slotsAt ctx address = pure (slots.map ctx.slotOf) := by
  have positive := ctx.image.ptr_pos
  have room := run.stop_le (List.append_ne_nil_of_left_ne_nil occupied rest)
  have others : 0 ≤ ctx.image.ptr * rest.length := Int.mul_nonneg (by omega) (by omega)
  rw [List.length_append, Int.natCast_add, Int.mul_add] at room
  -- The words left in the block bound the run; there are at least as many as slots.
  have enough : (slots.length : Int) ≤ (g.block.stop - address) / ctx.image.ptr := by
    rw [Int.le_ediv_iff_mul_le positive, Int.mul_comm]
    omega
  exact slotsFrom_layout run good (by omega) (fun _ => occupied) ends

/-! ### Groups -/

/-- No table follows at the end of the block or at a symbol. -/
theorem tablesFrom_end (running : ctx.cancelled = false)
    (fit : ∃ most, ctx.limits.maxVcallOffsets = .whole most)
    (closed : address = g.block.stop ∨ ctx.image.hasSymbolAt address = true) (count : Nat) :
    g.tablesFrom ctx count false address = pure [] := by
  cases count with
  | zero => rfl
  | succ count =>
    rw [tablesFrom, checkCancelled_running running, pure_bind]
    rcases closed with stop | marked
    · have outside := g.block.not_contains_stop ctx.image.ptr_pos
      rw [stop, headerOf?_outside fit outside, pure_bind, ite_self]
    · rw [marked]
      rfl

/-- The table that is read from a header and slots is the one that was laid out. -/
theorem ofHeader_layout (start : Int) :
    SubTable.ofHeader ctx.image.ptr g.owner start
      ⟨start + ctx.image.ptr * l.vcallOffsets.length, l.offsetToTop.toInt,
        l.vcallOffsets.map (·.toInt)⟩ (l.slots.map ctx.slotOf) = ctx.tableOf g.owner start l :=
  rfl

/-- **The tables of a group are read as they were laid out.** -/
theorem tablesFrom_layouts (running : ctx.cancelled = false)
    {layouts : List (TableLayout ctx.image.width)} {first : Bool} {count : Nat}
    (fit : ∃ most, ctx.limits.maxVcallOffsets = .whole most)
    (run : ctx.image.HoldsRun g.block first address (TableLayout.groupWords owner layouts))
    (legible : ∀ l ∈ layouts, ctx.Legible g.owner owner l)
    (nonzero : first = false → ∀ l ∈ layouts, l.offsetToTop.toInt ≠ 0)
    (others : ∀ l ∈ layouts.tail, l.offsetToTop.toInt ≠ 0)
    (secondaries : 1 < layouts.length → g.secondaries = true)
    (closed : address + ctx.image.ptr * (TableLayout.groupWords owner layouts).length =
        g.block.stop ∨ ctx.image.hasSymbolAt
        (address + ctx.image.ptr * (TableLayout.groupWords owner layouts).length) = true)
    (occupied : first = true → layouts ≠ []) (enough : layouts.length ≤ count) :
    g.tablesFrom ctx count first address = pure (ctx.tablesOf g.owner address layouts) := by
  -- The induction is over the tables; `first` tells the primary table from the others.
  induction layouts generalizing first count address with
  | nil =>
    have later : first = false := Bool.eq_false_iff.mpr fun is => occupied is rfl
    rw [TableLayout.groupWords, List.flatMap_nil, add_mul_length_nil] at closed
    rw [later, tablesFrom_end running fit closed]
    rfl
  | cons l rest ih =>
    obtain ⟨count, rfl⟩ := Nat.exists_eq_add_one.mpr (Nat.zero_lt_of_lt enough)
    obtain ⟨here, later⟩ := List.forall_mem_cons.mp legible
    rw [TableLayout.groupWords, List.flatMap_cons, ← TableLayout.groupWords] at run closed
    rw [List.length_append, l.length_words, Int.natCast_add, Int.mul_add, ← Int.add_assoc] at closed
    have header : g.headerOf? ctx (!first) address = _ :=
      headerOf?_layout here run fun second =>
        nonzero ((Bool.not_eq_true' first).mp second) l (List.mem_cons_self ..)
    -- The slots of the last table end with the group, those of any other at the next table.
    have ends : ∀ words afterDestructor, g.slotsFrom ctx words false afterDestructor
        (address + ctx.image.ptr * l.size) = pure [] := by
      intro words afterDestructor
      cases rest with
      | nil =>
        rw [TableLayout.groupWords, List.flatMap_nil, add_mul_length_nil] at closed
        exact slotsFrom_end closed words afterDestructor
      | cons next rest =>
        have following := run.next
        rw [TableLayout.groupWords, List.flatMap_cons] at following
        exact slotsFrom_next (later next (List.mem_cons_self ..))
          (secondaries (by simp only [List.length_cons]; omega)) following
          (others next (List.mem_cons_self ..)) words afterDestructor
    have slots : g.slotsAt ctx
        (address + ctx.image.ptr * l.vcallOffsets.length + 2 * ctx.image.ptr) =
          pure (l.slots.map ctx.slotOf) := by
      have good : ∀ w ∈ l.slots, ctx.IsSlot w ∧ w.toNat ≠ 0 :=
        fun w member => ⟨here.slots w member, here.slot_ne_zero member⟩
      refine slotsAt_layout run.slots good l.occupied fun words afterDestructor => ?_
      rw [← ends words afterDestructor, l.mul_size]
      congr 1
      omega
    have more : g.tablesFrom ctx count false (address + ctx.image.ptr * l.size) = _ :=
      ih run.next later (fun _ => others) (fun l member => others l (List.mem_of_mem_tail member))
        (fun two => secondaries (by rw [List.length_cons]; omega)) closed
        (fun never => Bool.noConfusion never) (Nat.le_of_succ_le_succ enough)
    have unmarked := run.unmarked (List.append_ne_nil_of_left_ne_nil (l.words_ne_nil owner) _)
    rw [tablesFrom, checkCancelled_running running, pure_bind, unmarked, header]
    show (g.slotsAt ctx _ >>= _) = _
    rw [slots, pure_bind, ofHeader_layout]
    show (g.tablesFrom ctx count false
      ((ctx.tableOf g.owner address l).stop ctx.image.ptr) >>= _) = _
    rw [Context.stop_tableOf, more]
    rfl

end Group

end ItaniumRtti
