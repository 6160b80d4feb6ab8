import ItaniumRtti.Proofs.Faults
import ItaniumRtti.Proofs.Layout
import ItaniumRtti.Proofs.Sound
import Mathlib.Data.Int.Bitwise
import Mathlib.Tactic.Ring

namespace ItaniumRtti

/-!
# Base descriptors are decoded exactly

A class that describes its bases in the general way holds a flag word, the number of its bases and
two words for each of them.

* `BaseField` — the fields that are read, in the order in which they lie in memory;
* `BaseField.Fails` — what can be wrong with a field;
* `TypeInfo.DescribedAt` — what a descriptor says of a base;
* `Recover.descriptors_spec` — a run of descriptors gives its bases or names the first field that
  fails;
* `Image.Carries` — bytes that stand in a program;
* `Image.descriptorBytes?` — descriptors as they are written;
* `TypeInfo.readBases_exact` — descriptors are decoded exactly, and read back as they were written.
-/

open Recover

/-! ### Fields -/

/-- A field of the description of a class's bases. -/
inductive BaseField where
  /-- The number of bases. -/
  | count
  /-- The pointer to the base with the given number. -/
  | pointer (i : Nat)
  /-- The offset and the flags of the base with the given number. -/
  | flags (i : Nat)
  deriving DecidableEq, Repr

namespace BaseField

/-- Where the field of a class stands. -/
def address (img : Image) (t : TypeInfo) : BaseField → Int
  | .count => t.address + 2 * img.ptr + 4
  | .pointer i => t.address + 2 * img.ptr + 8 + 2 * img.ptr * i
  | .flags i => t.address + 2 * img.ptr + 8 + 2 * img.ptr * i + img.ptr

/-- The number of fields that lie before the field. -/
def position : BaseField → Nat
  | .count => 0
  | .pointer i => 2 * i + 1
  | .flags i => 2 * i + 2

/-- The field is one of a class with `n` bases. -/
def Within (n : Nat) : BaseField → Prop
  | .count => True
  | .pointer i => i < n
  | .flags i => i < n

/-- The field of the class shows that its bases are malformed. -/
inductive Fails (ctx : Context) (t : TypeInfo) : BaseField → Malformation → Prop where
  /-- The number of bases cannot be read. -/
  | unreadableCount : ctx.image.readInt (count.address ctx.image t) 4 false = .ok none →
      Fails ctx t .count .unreadableCount
  /-- There are more bases than the limits allow. -/
  | tooManyBases {n : Int} : ctx.image.readInt (count.address ctx.image t) 4 false = .ok (some n) →
      ctx.limits.maxBaseCount.exceededBy n = .ok true → Fails ctx t .count (.tooManyBases n)
  /-- The pointer cannot be resolved. -/
  | noBasePointer {i : Nat} : ctx.image.resolve ((pointer i).address ctx.image t) = .ok none →
      Fails ctx t (.pointer i) .noBasePointer
  /-- The pointer leads to something else than a class. -/
  | notAClass {i : Nat} {target : Int} :
      ctx.image.resolve ((pointer i).address ctx.image t) = .ok (some target) →
      ctx.roots.identify ctx.image target = .ok none →
      Fails ctx t (.pointer i) (.notAClass target)
  /-- The offset and the flags cannot be read. -/
  | unreadableFlags {i : Nat} :
      ctx.image.readInt ((flags i).address ctx.image t) ctx.image.ptr true = .ok none →
      Fails ctx t (.flags i) .unreadableFlags

/-- The words of the descriptors follow each other. -/
theorem address_eq (img : Image) (t : TypeInfo) {f : BaseField} {n : Nat}
    (later : f.position = n + 1) :
    f.address img t = t.address + 2 * img.ptr + 8 + img.ptr * n := by
  cases f with
  | count => cases later
  | pointer i =>
    obtain rfl : 2 * i = n := Nat.succ.inj later
    rw [address, Nat.cast_mul]
    ring
  | flags i =>
    obtain rfl : 2 * i + 1 = n := Nat.succ.inj later
    rw [address, Nat.cast_add, Nat.cast_mul]
    ring

/-- The flags stand after the pointer. -/
theorem pointer_add_ptr (img : Image) (t : TypeInfo) (i : Nat) :
    (pointer i).address img t + img.ptr = (flags i).address img t :=
  rfl

/-- The next pointer stands after the flags. -/
theorem pointer_add_two_ptr (img : Image) (t : TypeInfo) (i : Nat) :
    (pointer i).address img t + 2 * img.ptr = (pointer (i + 1)).address img t := by
  rw [address, address, Nat.cast_add]
  ring

/-- The first descriptor stands after the count. -/
theorem pointer_zero (img : Image) (t : TypeInfo) :
    t.address + 2 * img.ptr + 8 = (pointer 0).address img t := by
  rw [address, Nat.cast_zero, Int.mul_zero, Int.add_zero]

/-- The pointers stand two words apart. -/
theorem pointer_add (img : Image) (t : TypeInfo) (i : Nat) :
    (pointer 0).address img t + 2 * img.ptr * i = (pointer i).address img t := by
  rw [← pointer_zero]
  rfl

/-- Fields that lie later have greater addresses. -/
theorem address_le (img : Image) (t : TypeInfo) {f g : BaseField}
    (before : f.position ≤ g.position) : f.address img t ≤ g.address img t := by
  have positive := img.ptr_pos
  cases there : g.position with
  | zero =>
    -- the count alone has no field before it
    cases f <;> cases g <;> simp only [position] at before there <;> omega
  | succ n =>
    rw [address_eq img t there]
    cases here : f.position with
    | zero =>
      cases f with
      | count =>
        have nonneg := Int.mul_nonneg (Int.le_of_lt positive) (Int.natCast_nonneg n)
        rw [address]
        omega
      | pointer i => cases here
      | flags i => cases here
    | succ m =>
      have step : img.ptr * m ≤ img.ptr * n :=
        Int.mul_le_mul_of_nonneg_left (by omega) (Int.le_of_lt positive)
      rw [address_eq img t here]
      omega

/-- No two fields have the same position. -/
theorem position_injective : Function.Injective position := by
  intro f g same
  cases f <;> cases g <;> simp only [position] at same <;> first | omega | (congr 1; omega) | rfl

/-- A field lies before the next descriptor only if it lies in this one or before it. -/
theorem eq_or_eq_of_position {i : Nat} {g : BaseField}
    (from_ : (pointer i).position ≤ g.position) (before : g.position < (pointer (i + 1)).position) :
    g = .pointer i ∨ g = .flags i := by
  have places : (pointer i).position = 2 * i + 1 ∧ (flags i).position = 2 * i + 2 ∧
      (pointer (i + 1)).position = 2 * i + 3 := ⟨rfl, rfl, rfl⟩
  rcases Nat.lt_or_ge g.position (2 * i + 2) with early | late
  · exact .inl (position_injective (by omega))
  · exact .inr (position_injective (by omega))

end BaseField

/-! ### Descriptors -/

/-- The lowest bit of a number tells whether it is odd, also of a negative one. -/
theorem testBit_zero_eq (word : Int) : word.testBit 0 = (word % 2 == 1) := by
  rw [Bool.eq_iff_iff, beq_iff_eq]
  cases word with
  | ofNat n =>
    show n.testBit 0 = true ↔ _
    rw [Nat.testBit_zero, decide_eq_true_eq, Int.ofNat_eq_natCast]
    omega
  | negSucc n =>
    show (!n.testBit 0) = true ↔ _
    rw [Nat.testBit_zero, Bool.not_eq_true', decide_eq_false_iff_not]
    omega

/-- The next bit is the lowest of its half. -/
theorem testBit_one_eq (word : Int) : word.testBit 1 = (word / 2).testBit 0 := by
  cases word with
  | ofNat n => exact Nat.testBit_succ n 0
  | negSucc n =>
    show (!n.testBit 1) = (!(n / 2).testBit 0)
    rw [Nat.testBit_succ]

/-- What the packed word of a base says, bit by bit. -/
theorem Base.ofFlags_eq (target : TypeInfo) (word : Int) :
    Base.ofFlags target word = ⟨target, word >>> (8 : Nat), word.testBit 0, word.testBit 1⟩ := by
  rw [Base.ofFlags, testBit_one_eq, testBit_zero_eq, testBit_zero_eq, Int.shiftRight_eq_div_pow]
  rfl

/-- A base is found again in its packed word. -/
theorem Base.ofFlags_flags (b : Base) : Base.ofFlags b.target b.flags = b := by
  obtain ⟨target, offset, isVirtual, isPublic⟩ := b
  cases isVirtual <;> cases isPublic <;>
    simp only [Base.ofFlags, Base.flags, Base.mk.injEq, true_and, if_true, if_false,
      Bool.false_eq_true, beq_eq_false_iff_ne, beq_iff_eq] <;>
    refine ⟨?_, ?_, ?_⟩ <;> omega

namespace TypeInfo

variable (ctx : Context) (t : TypeInfo)

/-- The descriptor with the number `i` leads to the base `b`, and its second word has the offset and
    the flags of `b`. -/
structure DescribedAt (i : Nat) (b : Base) : Prop where
  /-- The pointer leads to the base class. -/
  target : ∃ place,
    ctx.image.resolve ((BaseField.pointer i).address ctx.image t) = .ok (some place) ∧
    ctx.roots.identify ctx.image place = .ok (some b.target)
  /-- The word after it has the flags in its lowest bits and the signed offset from bit eight on. -/
  flags : ∃ word, ctx.image.readInt ((BaseField.flags i).address ctx.image t) ctx.image.ptr true =
      .ok (some word) ∧
    b.offset = word >>> (8 : Nat) ∧ b.isVirtual = word.testBit 0 ∧ b.isPublic = word.testBit 1

/-- The class has `n` descriptors, and each of them can be read. -/
structure Describable (n : Nat) : Prop where
  /-- The number of descriptors. -/
  count : ctx.image.readInt (BaseField.count.address ctx.image t) 4 false = .ok (some (n : Int))
  /-- The limits allow it. -/
  allowed : ctx.limits.maxBaseCount.exceededBy n = .ok false
  /-- Each pointer leads to a class. -/
  pointer : ∀ i < n, ∃ place c,
    ctx.image.resolve ((BaseField.pointer i).address ctx.image t) = .ok (some place) ∧
    ctx.roots.identify ctx.image place = .ok (some c)
  /-- The word after each pointer can be read. -/
  flags : ∀ i < n, ∃ word,
    ctx.image.readInt ((BaseField.flags i).address ctx.image t) ctx.image.ptr true = .ok (some word)

variable {ctx t}

/-- What is decoded from a pointer and a word is described by them. -/
theorem DescribedAt.ofFlags {i : Nat} {place word : Int} {c : TypeInfo}
    (resolved : ctx.image.resolve ((BaseField.pointer i).address ctx.image t) = .ok (some place))
    (identified : ctx.roots.identify ctx.image place = .ok (some c))
    (read : ctx.image.readInt ((BaseField.flags i).address ctx.image t) ctx.image.ptr true =
      .ok (some word)) : t.DescribedAt ctx i (.ofFlags c word) := by
  rw [Base.ofFlags_eq]
  exact ⟨⟨place, resolved, identified⟩, word, read, rfl, rfl, rfl⟩

/-- A descriptor describes one base. -/
theorem DescribedAt.unique {i : Nat} {b b' : Base} (first : t.DescribedAt ctx i b)
    (second : t.DescribedAt ctx i b') : b = b' := by
  obtain ⟨⟨place, resolved, identified⟩, word, read, offset, isVirtual, isPublic⟩ := first
  obtain ⟨⟨_, resolved', identified'⟩, _, read', offset', isVirtual', isPublic'⟩ := second
  cases resolved.symm.trans resolved'
  cases read.symm.trans read'
  cases b with
  | mk target _ _ _ =>
  cases b' with
  | mk target' _ _ _ =>
  cases identified.symm.trans identified'
  simp only at offset isVirtual isPublic offset' isVirtual' isPublic'
  rw [offset, offset', isVirtual, isVirtual', isPublic, isPublic']

/-- A pointer that leads to a class does not fail. -/
theorem not_fails_of_pointer {i : Nat} {place : Int} {c : TypeInfo}
    (resolved : ctx.image.resolve ((BaseField.pointer i).address ctx.image t) = .ok (some place))
    (identified : ctx.roots.identify ctx.image place = .ok (some c)) (what : Malformation) :
    ¬ (BaseField.pointer i).Fails ctx t what := by
  intro fails
  cases fails with
  | noBasePointer none => cases resolved.symm.trans none
  | notAClass some other =>
    cases resolved.symm.trans some
    cases identified.symm.trans other

/-- Flags that are read do not fail. -/
theorem not_fails_of_flags {i : Nat} {word : Int}
    (read : ctx.image.readInt ((BaseField.flags i).address ctx.image t) ctx.image.ptr true =
      .ok (some word)) (what : Malformation) : ¬ (BaseField.flags i).Fails ctx t what := by
  intro fails
  cases fails with
  | unreadableFlags none => cases read.symm.trans none

end TypeInfo

/-! ### Runs of descriptors -/

namespace Recover

variable {ctx : Context} {t : TypeInfo}

/-- A pointer that leads to a class gives the class, which is met by it. -/
theorem baseAt_of_identify {field place : Int} {c : TypeInfo}
    (resolved : ctx.image.resolve field = .ok (some place))
    (identified : ctx.roots.identify ctx.image place = .ok (some c)) (known : Knowledge) :
    baseAt ctx t field known = .ok c (known.meet c) := by
  rw [baseAt, bind_ok (lift_ok known resolved)]
  dsimp only
  rw [bind_ok (classAt?_of_identify identified known)]
  rfl

/-- A pointer that fails is reported with its own address, and nothing is learnt. -/
theorem baseAt_of_fails {i : Nat} {what : Malformation}
    (fails : (BaseField.pointer i).Fails ctx t what)
    (known : Knowledge) :
    baseAt ctx t ((BaseField.pointer i).address ctx.image t) known =
      .error (.malformed ⟨t.address, (BaseField.pointer i).address ctx.image t, what⟩) known := by
  rw [baseAt]
  cases fails with
  | noBasePointer none =>
    rw [bind_ok (lift_ok known none)]
    rfl
  | notAClass some other =>
    rw [bind_ok (lift_ok known some)]
    dsimp only
    rw [bind_ok (classAt?_of_identify other known)]
    rfl

/-- A base pointer that leads to no class is malformed. -/
theorem malformed_of_baseAt (readable : ctx.image.order.Known) {field : Int} {fault : Fault}
    {known after : Knowledge} (stopped : baseAt ctx t field known = .error fault after) :
    ∃ what, fault = .malformed what := by
  obtain ⟨value, resolved⟩ := ctx.image.resolve_ok readable field
  rw [baseAt, bind_ok (lift_ok known resolved)] at stopped
  -- In a known byte order both the pointer and the class behind it can be asked for, so only what
  -- they are can stop it.
  cases value with
  | none =>
    cases stopped
    exact ⟨_, rfl⟩
  | some place =>
    obtain ⟨found, identified⟩ := ctx.roots.identify_ok readable place
    dsimp only at stopped
    rw [bind_ok (classAt?_of_identify identified known)] at stopped
    cases found with
    | none =>
      cases stopped
      exact ⟨_, rfl⟩
    | some c => cases stopped

/-- A base pointer leads to a class, or fails. -/
theorem pointer_cases (readable : ctx.image.order.Known) (t : TypeInfo) (i : Nat) :
    (∃ place c, ctx.image.resolve ((BaseField.pointer i).address ctx.image t) = .ok (some place) ∧
      ctx.roots.identify ctx.image place = .ok (some c)) ∨
    ∃ what, (BaseField.pointer i).Fails ctx t what := by
  obtain ⟨value, resolved⟩ :=
    ctx.image.resolve_ok readable ((BaseField.pointer i).address ctx.image t)
  cases value with
  | none => exact .inr ⟨_, .noBasePointer resolved⟩
  | some place =>
    obtain ⟨found, identified⟩ := ctx.roots.identify_ok readable place
    cases found with
    | none => exact .inr ⟨_, .notAClass resolved identified⟩
    | some c => exact .inl ⟨place, c, resolved, identified⟩

/-- **A run of descriptors gives its bases, or names the first field that fails.** -/
theorem descriptors_spec (readable : ctx.image.order.Known) (t : TypeInfo) (count i : Nat)
    (known : Knowledge) :
    (∃ bases after,
      descriptors ctx t count ((BaseField.pointer i).address ctx.image t) known =
        .ok bases after ∧
      bases.length = count ∧ ∀ j b, bases[j]? = some b → t.DescribedAt ctx (i + j) b) ∨
    ∃ (f : BaseField) (what : Malformation) (after : Knowledge),
      descriptors ctx t count ((BaseField.pointer i).address ctx.image t) known =
        .error (.malformed ⟨t.address, f.address ctx.image t, what⟩) after ∧
      f.Fails ctx t what ∧ f.Within (i + count) ∧ (BaseField.pointer i).position ≤ f.position ∧
      ∀ g : BaseField, (BaseField.pointer i).position ≤ g.position → g.position < f.position →
        ∀ what, ¬ g.Fails ctx t what := by
  -- the descriptors that follow start with the pointer number `i + 1`
  induction count generalizing i known with
  | zero =>
    refine .inl ⟨[], known, rfl, rfl, fun j b found => ?_⟩
    cases found
  | succ count ih =>
    rw [descriptors, BaseField.pointer_add_ptr, BaseField.pointer_add_two_ptr]
    rcases pointer_cases readable t i with ⟨place, c, resolved, identified⟩ | ⟨what, fails⟩
    · rw [bind_ok (baseAt_of_identify resolved identified known)]
      have sound := TypeInfo.not_fails_of_pointer resolved identified
      obtain ⟨value, read⟩ := ctx.image.readInt_ok readable
        ((BaseField.flags i).address ctx.image t) ctx.image.ptr true
      cases value with
      | none =>
        -- the only field before the flags is the pointer
        refine .inr ⟨.flags i, .unreadableFlags, known.meet c, ?_, .unreadableFlags read, ?_,
          Nat.le_succ _, fun g from_ before => ?_⟩
        · rw [bind_ok (lift_ok _ read)]
          rfl
        · show i < i + (count + 1)
          omega
        · obtain rfl : g = .pointer i :=
            BaseField.position_injective (Nat.le_antisymm (Nat.le_of_lt_succ before) from_)
          exact sound
      | some word =>
        rw [bind_ok (lift_ok _ read)]
        dsimp only
        rcases ih (i + 1) (known.meet c) with
          ⟨bases, after, found, length, each⟩ |
            ⟨f, what, after, stopped, fails, within, later, first⟩
        · rw [bind_ok found]
          refine .inl ⟨_, after, rfl, by rw [List.length_cons, length], fun j b at_ => ?_⟩
          cases j with
          | zero =>
            cases at_
            exact .ofFlags resolved identified read
          | succ j =>
            have := each j b at_
            rwa [Nat.add_right_comm] at this
        · rw [bind_error stopped]
          refine .inr ⟨f, what, after, rfl, fails, ?_, ?_, fun g from_ before => ?_⟩
          · rwa [Nat.add_right_comm] at within
          · exact Nat.le_trans (Nat.le_add_right _ 2) later
          · rcases Nat.lt_or_ge g.position (BaseField.pointer (i + 1)).position with early | late
            · -- the two fields of this descriptor are sound
              rcases BaseField.eq_or_eq_of_position from_ early with rfl | rfl
              · exact sound
              · exact TypeInfo.not_fails_of_flags read
            · exact first g late before
    · -- the pointer is the first field of all
      refine .inr ⟨.pointer i, what, known, bind_error (baseAt_of_fails fails known), fails, ?_,
        le_refl _, fun g from_ before => absurd before (Nat.not_lt.mpr from_)⟩
      show i < i + (count + 1)
      omega

end Recover

/-! ### All descriptors of a class -/

/-- A number that is read is the value of some bytes. -/
theorem Image.value?_of_readInt {img : Image} {address size value : Int} {signed : Bool}
    (read : img.readInt address size signed = .ok (some value)) :
    ∃ bytes n, img.order.value? bytes = some n ∧
      value = if signed then signedValue bytes.length n else n := by
  rw [readInt] at read
  split at read
  · cases read
  · split at read
    · cases read
    · split at read
      · cases read
      · next bytes _ _ _ n decoded =>
        cases read
        exact ⟨bytes, n, decoded, rfl⟩

/-- An unsigned number that is read is a natural one. -/
theorem Image.natural_of_readInt {img : Image} {address size value : Int}
    (read : img.readInt address size false = .ok (some value)) : ∃ n : Nat, value = n := by
  obtain ⟨-, n, -, rfl⟩ := value?_of_readInt read
  exact ⟨n, rfl⟩

/-- A number can be read only in a known byte order. -/
theorem Image.known_of_readInt {img : Image} {address size value : Int} {signed : Bool}
    (read : img.readInt address size signed = .ok (some value)) : img.order.Known := by
  obtain ⟨bytes, n, decoded, -⟩ := value?_of_readInt read
  exact ByteOrder.known_of_bytes? ((img.order.value?_eq_some_iff bytes n).mp decoded).2

namespace TypeInfo

variable {ctx : Context} {t : TypeInfo} {known : Knowledge}

/-- If the number of bases is readable and allowed, so many descriptors are read. -/
theorem readBases_of_count (general : t.kind = .general) {n : Nat}
    (read : ctx.image.readInt (BaseField.count.address ctx.image t) 4 false = .ok (some (n : Int)))
    (allowed : ctx.limits.maxBaseCount.exceededBy n = .ok false) :
    t.readBases ctx known =
      descriptors ctx t n ((BaseField.pointer 0).address ctx.image t) known := by
  rw [BaseField.address] at read
  rw [readBases, general]
  dsimp only
  rw [bind_ok (lift_ok known read)]
  dsimp only
  rw [bind_ok (lift_ok known allowed), BaseField.pointer_zero]
  rfl

/-- A number of bases that fails is reported with the address of that number. -/
theorem readBases_of_count_fails (general : t.kind = .general) {what : Malformation}
    (fails : BaseField.count.Fails ctx t what) :
    t.readBases ctx known =
      .error (.malformed ⟨t.address, BaseField.count.address ctx.image t, what⟩) known := by
  rw [readBases, general]
  dsimp only
  cases fails with
  | unreadableCount none =>
    rw [BaseField.address] at none
    rw [bind_ok (lift_ok known none)]
    rfl
  | tooManyBases some exceeded =>
    rw [BaseField.address] at some
    rw [bind_ok (lift_ok known some)]
    dsimp only
    rw [bind_ok (lift_ok known exceeded)]
    rfl

/-- The number of bases is readable and allowed, or fails. -/
theorem count_cases (readable : ctx.image.order.Known) (numeric : ctx.limits.maxBaseCount ≠ .unfit)
    (t : TypeInfo) :
    (∃ n : Nat, ctx.image.readInt (BaseField.count.address ctx.image t) 4 false =
      .ok (some (n : Int)) ∧ ctx.limits.maxBaseCount.exceededBy n = .ok false) ∨
    ∃ what, BaseField.count.Fails ctx t what := by
  obtain ⟨value, read⟩ :=
    ctx.image.readInt_ok readable (BaseField.count.address ctx.image t) 4 false
  cases value with
  | none => exact .inr ⟨_, .unreadableCount read⟩
  | some value =>
    obtain ⟨n, rfl⟩ := Image.natural_of_readInt read
    -- A limit that is a number can be compared with.
    cases exceeded : ctx.limits.maxBaseCount.exceededBy n with
    | error fault => exact absurd (Bound.exceededBy_faults _ _ _ exceeded).2 numeric
    | ok exceeds =>
      cases exceeds with
      | true => exact .inr ⟨_, .tooManyBases read exceeded⟩
      | false => exact .inl ⟨n, read, exceeded⟩

/-- Descriptors that can all be read are decoded. -/
theorem Describable.readBases (general : t.kind = .general) {n : Nat}
    (describable : t.Describable ctx n) (known : Knowledge) :
    ∃ bases after, t.readBases ctx known = .ok bases after ∧ bases.length = n ∧
      ∀ i b, bases[i]? = some b → t.DescribedAt ctx i b := by
  rw [readBases_of_count general describable.count describable.allowed]
  rcases descriptors_spec (Image.known_of_readInt describable.count) t n 0 known with
    ⟨bases, after, found, length, each⟩ | ⟨f, what, after, -, fails, within, later, -⟩
  · simp only [Nat.zero_add] at each
    exact ⟨bases, after, found, length, each⟩
  · -- The run would have stopped at a field that fails, but every field can be read.
    rw [Nat.zero_add] at within
    cases f with
    | count => cases later
    | pointer i =>
      obtain ⟨place, c, resolved, identified⟩ := describable.pointer i within
      exact absurd fails (not_fails_of_pointer resolved identified what)
    | flags i =>
      obtain ⟨word, read⟩ := describable.flags i within
      exact absurd fails (not_fails_of_flags read what)

/-- Otherwise the first field that fails is named. -/
theorem readBases_of_not_describable (general : t.kind = .general)
    (readable : ctx.image.order.Known) (numeric : ctx.limits.maxBaseCount ≠ .unfit)
    (not : ¬ ∃ n, t.Describable ctx n) (known : Knowledge) :
    ∃ (f : BaseField) (what : Malformation) (after : Knowledge),
      t.readBases ctx known =
        .error (.malformed ⟨t.address, f.address ctx.image t, what⟩) after ∧
      f.Fails ctx t what ∧
      (∀ n : Nat, ctx.image.readInt (BaseField.count.address ctx.image t) 4 false =
        .ok (some (n : Int)) → f.Within n) ∧
      ∀ (g : BaseField) (other : Malformation), g.Fails ctx t other →
        f.address ctx.image t ≤ g.address ctx.image t := by
  rcases count_cases readable numeric t with ⟨n, read, allowed⟩ | ⟨what, fails⟩
  · rw [readBases_of_count general read allowed]
    rcases descriptors_spec readable t n 0 known with
      ⟨bases, after, found, length, each⟩ | ⟨f, what, after, stopped, fails, within, later, first⟩
    · refine absurd ⟨n, read, allowed, fun i less => ?_, fun i less => ?_⟩ not
      all_goals
        have at_ : bases[i]? = some bases[i] := List.getElem?_eq_getElem (length ▸ less)
        obtain ⟨⟨place, resolved, identified⟩, word, stored, -⟩ := each i bases[i] at_
        rw [Nat.zero_add] at resolved stored
      · exact ⟨place, _, resolved, identified⟩
      · exact ⟨word, stored⟩
    · refine ⟨f, what, after, stopped, fails, fun m same => ?_, fun g other failsToo => ?_⟩
      · cases read.symm.trans same
        rwa [Nat.zero_add] at within
      · refine BaseField.address_le ctx.image t (Nat.le_of_not_lt fun before => ?_)
        rcases Nat.eq_zero_or_pos g.position with zero | positive
        · -- the count does not fail
          obtain rfl : g = .count := BaseField.position_injective zero
          cases failsToo with
          | unreadableCount none => cases read.symm.trans none
          | tooManyBases some exceeded =>
            cases read.symm.trans some
            cases allowed.symm.trans exceeded
        · exact first g positive before other failsToo
  · refine ⟨.count, what, known, readBases_of_count_fails general fails, fails, fun _ _ => trivial,
      fun g _ _ => BaseField.address_le ctx.image t (Nat.zero_le _)⟩

/-- In a known byte order and with a limit that is a number, bases cannot be read only because they
    are malformed. -/
theorem malformed_of_readBases (readable : ctx.image.order.Known)
    (numeric : ctx.limits.maxBaseCount ≠ .unfit) {fault : Fault} {after : Knowledge}
    (stopped : t.readBases ctx known = .error fault after) : ∃ what, fault = .malformed what := by
  cases kind : t.kind with
  | simple =>
    rw [readBases, kind] at stopped
    cases stopped
  | single =>
    rw [readBases, kind] at stopped
    have asked : baseAt ctx t (t.address + 2 * ctx.image.ptr) known = .error fault after :=
      of_map_error stopped
    exact malformed_of_baseAt readable asked
  | general =>
    by_cases describable : ∃ n, t.Describable ctx n
    · obtain ⟨n, describable⟩ := describable
      obtain ⟨_, _, answered, -⟩ := describable.readBases kind known
      cases answered.symm.trans stopped
    · obtain ⟨f, what, _, failed, -⟩ :=
        readBases_of_not_describable kind readable numeric describable known
      cases failed.symm.trans stopped
      exact ⟨_, rfl⟩

end TypeInfo

/-! ### Writing -/

namespace Image

variable {img : Image} {b : Block} {address : Int} {bytes more : List UInt8}

/-- The bytes stand in the contents of the block `b` from `address` on, and these addresses belong
    to no other block. -/
structure Carries (img : Image) (b : Block) (address : Int) (bytes : List UInt8) : Prop where
  /-- The addresses belong to the block. -/
  found : ∀ place, address ≤ place → place < address + bytes.length → img.blockAt? place = some b
  /-- The bytes do not start before the block. -/
  start : b.start ≤ address
  /-- They end with the block at the latest. -/
  stop : address + bytes.length ≤ b.stop
  /-- They are there. -/
  stand : bytesAt b.data (address - b.start).toNat bytes.length = bytes

/-- Where bytes stand one after the other, each part of them stands. -/
theorem Carries.append (carries : img.Carries b address (bytes ++ more)) :
    img.Carries b address bytes ∧ img.Carries b (address + bytes.length) more := by
  obtain ⟨found, start, stop, stand⟩ := carries
  rw [List.length_append, Nat.cast_add] at found stop
  obtain ⟨first, second⟩ := bytesAt_append stand
  have offset : (address + bytes.length - b.start).toNat =
      (address - b.start).toNat + bytes.length := by omega
  refine ⟨⟨fun place least most => ?_, start, by omega, first⟩,
    ⟨fun place least most => ?_, by omega, by omega, ?_⟩⟩
  · exact found place least (by omega)
  · exact found place (by omega) (by omega)
  · rw [offset]
    exact second

/-- The bytes of a number are read back as that number. -/
theorem Carries.readInt {count n : Nat} (carries : img.Carries b address bytes)
    (written : img.order.bytes? count n = some bytes) (small : n < Nat.pow 256 count)
    (positive : 0 < count) (signed : Bool) :
    img.readInt address count signed =
      .ok (some (if signed then signedValue count n else (n : Int))) := by
  have length : bytes.length = count := ByteOrder.length_of_bytes? written
  obtain ⟨found, start, stop, stand⟩ := carries
  have here : img.blockAt? address = some b := found address (le_refl _) (by omega)
  have full := le_size_of_bytesAt stand (by omega)
  -- Where bytes stand, the block has contents.
  have initialized : b.initialized = true := decide_eq_true (by omega)
  have inside : b.contains address count = true := by
    rw [Block.contains_iff]
    omega
  have read : img.readBytes? address count = some bytes := by
    rw [readBytes?, here]
    dsimp only
    rw [inside, initialized, if_neg, if_neg, Int.toNat_natCast, ← length, stand]
    · exact Bool.false_ne_true
    · rw [Bool.or_eq_true, decide_eq_true_eq]
      exact fun either => either.elim (by omega) (by decide)
  have decoded : img.order.value? bytes = some n :=
    (img.order.value?_eq_some_iff bytes n).mpr (by rw [length]; exact ⟨small, written⟩)
  rw [Image.readInt, read]
  dsimp only
  rw [decoded, length, if_neg (not_not.mpr rfl)]

/-- The bytes of a word are read back, unsigned and signed. -/
theorem Carries.word {w : img.width.Word} (carries : img.Carries b address bytes)
    (written : img.order.bytes? img.width.bytes w.toNat = some bytes) :
    img.readInt address img.ptr false = .ok (some (w.toNat : Int)) ∧
      img.readInt address img.ptr true = .ok (some w.toInt) := by
  have read := carries.readInt written (PointerWidth.toNat_lt_span w) img.width.bytes_pos
  have signed := read true
  rw [signedValue_toNat] at signed
  exact ⟨read false, signed⟩

end Image

/-- The words of the descriptor of a base. -/
def Base.words (width : PointerWidth) (b : Base) : List width.Word :=
  [BitVec.ofInt _ b.target.address, BitVec.ofInt _ b.flags]

/-- The offset fits in what the flags leave of a word. -/
def Base.OffsetFits (width : PointerWidth) (b : Base) : Prop :=
  -(Nat.pow 2 (8 * width.bytes - 9) : Int) ≤ b.offset ∧ b.offset < Nat.pow 2 (8 * width.bytes - 9)

/-- Offset and flags together fit in a word if the offset fits in what the flags leave of it. -/
theorem Base.toInt_flags {width : PointerWidth} {b : Base} (fits : b.OffsetFits width) :
    (BitVec.ofInt (8 * width.bytes) b.flags).toInt = b.flags := by
  obtain ⟨least, most⟩ := fits
  -- The flags take the two lowest of the eight bits below the offset.
  have bits : 0 ≤ b.flags - 256 * b.offset ∧ b.flags - 256 * b.offset < 4 := by
    rw [Base.flags]
    cases b.isPublic <;> cases b.isVirtual <;> simp only [if_true, if_false, Bool.false_eq_true] <;>
      omega
  rw [BitVec.toInt_ofInt]
  cases width with
  | narrow =>
    simp only [PointerWidth.bytes, Nat.reduceMul, Nat.reduceSub, Nat.pow_eq, Nat.reducePow,
      Nat.cast_ofNat] at least most ⊢
    exact Int.bmod_eq_of_le (by omega) (by omega)
  | wide =>
    simp only [PointerWidth.bytes, Nat.reduceMul, Nat.reduceSub, Nat.pow_eq, Nat.reducePow,
      Nat.cast_ofNat] at least most ⊢
    exact Int.bmod_eq_of_le (by omega) (by omega)

/-- An address that a pointer can hold is read back from its word. -/
theorem toNat_ofInt_address {width : PointerWidth} {address : Int} (least : 0 ≤ address)
    (most : address < width.span) :
    ((BitVec.ofInt (8 * width.bytes) address).toNat : Int) = address := by
  rw [PointerWidth.span, pow_256_eq] at most
  rw [BitVec.toNat_ofInt, Int.emod_eq_of_lt least, Int.toNat_of_nonneg least]
  exact most

namespace Image

variable {img : Image} {b : Block} {address : Int} {bytes : List UInt8}

/-- The descriptors of a list of bases with the words before them: flags of the whole description,
    and the number of bases. -/
def descriptorBytes? (img : Image) (flags : Nat) (bases : List Base) : Option (List UInt8) := do
  let first ← img.order.bytes? 4 flags
  let count ← img.order.bytes? 4 bases.length
  let words ← img.wordBytes? (bases.flatMap (Base.words img.width))
  return first ++ (count ++ words)

/-- The words of each descriptor can be read. -/
theorem Carries.descriptor {bases : List Base}
    (written : img.wordBytes? (bases.flatMap (Base.words img.width)) = some bytes)
    (carries : img.Carries b address bytes) {i : Nat} {x : Base} (at_ : bases[i]? = some x) :
    img.readInt (address + 2 * img.ptr * i) img.ptr false =
        .ok (some ((BitVec.ofInt (8 * img.width.bytes) x.target.address).toNat : Int)) ∧
      img.readInt (address + 2 * img.ptr * i + img.ptr) img.ptr true =
        .ok (some (BitVec.ofInt (8 * img.width.bytes) x.flags).toInt) := by
  -- The induction peels off the two words of the first descriptor; the rest stands two words later.
  induction bases generalizing address bytes i with
  | nil => cases at_
  | cons y rest ih =>
    rw [List.flatMap_cons, Base.words, List.cons_append, List.cons_append, List.nil_append]
      at written
    obtain ⟨first, others, here, tail, rfl⟩ := wordBytes?_cons written
    obtain ⟨second, more, there, left, rfl⟩ := wordBytes?_cons tail
    obtain ⟨pointer, carries⟩ := carries.append
    obtain ⟨flags, carries⟩ := carries.append
    have size : (first.length : Int) = img.ptr ∧ (second.length : Int) = img.ptr := by
      rw [ByteOrder.length_of_bytes? here, ByteOrder.length_of_bytes? there]
      exact ⟨rfl, rfl⟩
    rw [size.1] at flags carries
    rw [size.2] at carries
    cases i with
    | zero =>
      cases at_
      rw [Nat.cast_zero, Int.mul_zero, Int.add_zero]
      exact ⟨(pointer.word here).1, (flags.word there).2⟩
    | succ i =>
      have later := ih left carries at_
      have place : address + img.ptr + img.ptr + 2 * img.ptr * i =
          address + 2 * img.ptr * (i + 1 : Nat) := by
        rw [Nat.cast_add]
        ring
      rw [place] at later
      exact later

end Image

namespace TypeInfo

variable (ctx : Context) (t : TypeInfo)

/-- The description of the `bases` stands after the name of the class. -/
structure Written (flags : Nat) (bases : List Base) : Prop where
  /-- The limits allow so many bases. -/
  allowed : ctx.limits.maxBaseCount.exceededBy bases.length = .ok false
  /-- Their number can be written. -/
  short : bases.length < Nat.pow 256 4
  /-- The bases are classes. -/
  identified : ∀ b ∈ bases, ctx.Identified b.target
  /-- Their offsets can be written. -/
  offset : ∀ b ∈ bases, b.OffsetFits ctx.image.width
  /-- Each pointer can hold the address of its base, or is relocated to it. -/
  pointer : ∀ (i : Nat) (b : Base), bases[i]? = some b →
    (ctx.image.relocationAt? ((BaseField.pointer i).address ctx.image t) = none ∧
      0 ≤ b.target.address ∧ b.target.address < ctx.image.width.span) ∨
    ∃ r, ctx.image.relocationAt? ((BaseField.pointer i).address ctx.image t) = some r ∧
      ctx.image.relocated? r = some b.target.address
  /-- The bytes are there. -/
  bytes : ∃ block bytes, ctx.image.descriptorBytes? flags bases = some bytes ∧
    ctx.image.Carries block (t.address + 2 * ctx.image.ptr) bytes

variable {ctx t} {flags : Nat} {bases : List Base}

namespace Written

variable (written : t.Written ctx flags bases)
include written

/-- The number of bases can be read, and the descriptors stand after it. -/
theorem parts : ∃ block words,
    ctx.image.wordBytes? (bases.flatMap (Base.words ctx.image.width)) = some words ∧
    ctx.image.Carries block ((BaseField.pointer 0).address ctx.image t) words ∧
    ctx.image.readInt (BaseField.count.address ctx.image t) 4 false =
      .ok (some (bases.length : Int)) := by
  obtain ⟨block, bytes, made, carries⟩ := written.bytes
  simp only [Image.descriptorBytes?, Option.bind_eq_bind, Option.bind_eq_some_iff, Option.pure_def,
    Option.some.injEq] at made
  obtain ⟨first, here, count, there, words, rest, rfl⟩ := made
  -- The first four bytes are flags of the whole description, which nothing reads here.
  obtain ⟨-, carries⟩ := carries.append
  obtain ⟨number, carries⟩ := carries.append
  rw [ByteOrder.length_of_bytes? here] at number carries
  rw [ByteOrder.length_of_bytes? there] at carries
  refine ⟨block, words, rest, ?_, number.readInt there written.short (by decide) false⟩
  have place : t.address + 2 * ctx.image.ptr + 8 =
      t.address + 2 * ctx.image.ptr + ((4 : Nat) : Int) + ((4 : Nat) : Int) := by omega
  rw [← BaseField.pointer_zero, place]
  exact carries

/-- The descriptor of each base describes it. -/
theorem describedAt {i : Nat} {b : Base} (at_ : bases[i]? = some b) : t.DescribedAt ctx i b := by
  obtain ⟨block, words, made, carries, -⟩ := written.parts
  obtain ⟨stored, packed⟩ := carries.descriptor made at_
  have member := List.mem_of_getElem? at_
  rw [BaseField.pointer_add] at stored packed
  rw [Base.toInt_flags (written.offset b member)] at packed
  have resolved : ctx.image.resolve ((BaseField.pointer i).address ctx.image t) =
      .ok (some b.target.address) := by
    rw [Image.resolve]
    -- A relocation has the last word on where a pointer leads, whatever bytes stand there.
    rcases written.pointer i b at_ with ⟨unrelocated, least, most⟩ | ⟨r, relocated, value⟩
    · rw [unrelocated]
      dsimp only
      rw [Image.readPointer, stored, toNat_ofInt_address least most]
    · rw [relocated]
      dsimp only
      rw [value]
  have described := DescribedAt.ofFlags resolved (written.identified b member) packed
  rwa [Base.ofFlags_flags] at described

/-- So what was written can be read. -/
theorem describable : t.Describable ctx bases.length := by
  obtain ⟨block, words, -, -, count⟩ := written.parts
  refine ⟨count, written.allowed, fun i less => ?_, fun i less => ?_⟩
  all_goals
    have at_ : bases[i]? = some bases[i] := List.getElem?_eq_getElem less
    obtain ⟨⟨place, resolved, identified⟩, word, stored, -⟩ := written.describedAt at_
  · exact ⟨place, _, resolved, identified⟩
  · exact ⟨word, stored⟩

/-- **What was written is read back.** -/
theorem readBases (general : t.kind = .general) {known : Knowledge} :
    ∃ after, t.readBases ctx known = .ok bases after := by
  obtain ⟨found, after, answered, length, each⟩ := written.describable.readBases general known
  have same : found = bases := by
    refine List.ext_getElem length fun i less more => ?_
    exact (each i _ (List.getElem?_eq_getElem less)).unique
      (written.describedAt (List.getElem?_eq_getElem more))
  exact ⟨after, same ▸ answered⟩

end Written

/-- **Base descriptors are decoded exactly.**  If the number of bases is readable and allowed, and
    each descriptor has a pointer to a class and readable flags, there is one base for each
    descriptor, in order, as it is described.  Otherwise the description is malformed, and the first
    field that fails is named.  Bases that were written are read back. -/
theorem readBases_exact (ctx : Context) (t : TypeInfo) (known : Knowledge)
    (general : t.kind = .general) :
    (∀ n, t.Describable ctx n → ∃ bases after, t.readBases ctx known = .ok bases after ∧
      bases.length = n ∧ ∀ i b, bases[i]? = some b → t.DescribedAt ctx i b) ∧
    (ctx.image.order.Known → ctx.limits.maxBaseCount ≠ .unfit → (¬ ∃ n, t.Describable ctx n) →
      ∃ (f : BaseField) (what : Malformation) (after : Knowledge),
        t.readBases ctx known =
          .error (.malformed ⟨t.address, f.address ctx.image t, what⟩) after ∧
        f.Fails ctx t what ∧
        (∀ n : Nat, ctx.image.readInt (BaseField.count.address ctx.image t) 4 false =
          .ok (some (n : Int)) → f.Within n) ∧
        ∀ (g : BaseField) (other : Malformation), g.Fails ctx t other →
          f.address ctx.image t ≤ g.address ctx.image t) ∧
    ∀ flags bases, t.Written ctx flags bases →
      ∃ after, t.readBases ctx known = .ok bases after :=
  ⟨fun _ describable => describable.readBases general known,
    fun readable numeric not => readBases_of_not_describable general readable numeric not known,
    fun _ _ written => written.readBases general⟩

end TypeInfo

/-! ### A program with a cycle of classes -/

/-- The data of a program in which the base classes of classes form a cycle: the type_info of a
    class without bases at the start, those of three classes that derive from it and from each other
    after 8, 40 and 72 bytes, and after 112 bytes that of a class with a second base pointer that
    leads to no class. -/
def Block.sampleCycle : Block where
  name := ".data"
  start := 0x400000
  data := ⟨(([0x500008, 0,
      0x500108, 0, 0, 2, 0x400000, 0x402, 0x400048, 0xfffff403,
      0x500108, 0, 0, 2, 0x400008, 0x2, 0x400000, 0x100,
      0x500108, 0, 0, 3, 0x400028, 0x2, 0x400000, 0x802, 0x400008, 0xc02,
      0x500108, 0, 0, 2, 0x400048, 0x2, 0x400004, 0x402] :
      List Nat).flatMap fun n => (littleBytes 4 n).reverse).toArray⟩
  size := 144

/-- A program in which the base classes of classes form a cycle. -/
def Image.sampleCycle : Image where
  width := .narrow
  order := .big
  arch := "ppc"
  abi := none
  blocks := [.sampleCycle]
  symbols := [{ name := "_ZTVN10__cxxabiv117__class_type_infoE", address := 0x500000 },
    { name := "_ZTVN10__cxxabiv121__vmi_class_type_infoE", address := 0x500100 }]
  relocations := ∅
  ordered := by decide

/-- Questions about that program. -/
def Context.sampleCycle : Context where
  image := .sampleCycle
  roots := .ofImage .sampleCycle none
  demangle := fun _ => none
  limits := {}
  cancelled := false

/-- The bases of the first class of the cycle. -/
def Base.sampleCycle : List Base :=
  [⟨⟨0x400000, .simple⟩, 4, false, true⟩, ⟨⟨0x400048, .general⟩, -12, true, true⟩]

namespace TypeInfo

/-- The bases of the first class stand in the data. -/
theorem written_sampleCycle : Written .sampleCycle ⟨0x400008, .general⟩ 0 Base.sampleCycle where
  allowed := rfl
  short := by decide
  identified := by
    unfold Context.Identified
    decide +kernel
  offset := by
    unfold Base.OffsetFits
    decide +kernel
  pointer i b at_ := by
    have inside : ∀ b ∈ Base.sampleCycle, 0 ≤ b.target.address ∧
        b.target.address < Context.sampleCycle.image.width.span := by decide
    exact .inl ⟨rfl, inside b (List.mem_of_getElem? at_)⟩
  bytes := by
    refine ⟨.sampleCycle, _, rfl, fun place least most => ?_, by decide, by decide,
      by decide +kernel⟩
    have tidy : Image.sampleCycle.Tidy := by decide
    refine (Image.blockAt?_eq_some_iff tidy).mpr ⟨List.mem_cons_self .., ?_⟩
    exact ⟨Int.le_trans (by decide) least, Int.lt_of_lt_of_le most (by decide)⟩

/-- The second pointer of the last class leads to no class. -/
theorem fails_sampleCycle :
    (BaseField.pointer 1).Fails .sampleCycle ⟨0x400070, .general⟩ (.notAClass 0x400004) := by
  refine .notAClass ?_ ?_
  · decide +kernel
  · decide +kernel

/-- The first class of the cycle has the bases that were written, a virtual one at a negative offset
    among them.  The last class is malformed: a field is named that fails, and it lies no later than
    the second pointer. -/
theorem readBases_exact_sampleCycle :
    (∃ after, readBases .sampleCycle ⟨0x400008, .general⟩ .initial = .ok Base.sampleCycle after) ∧
    ∃ (f : BaseField) (what : Malformation) (after : Knowledge),
      readBases .sampleCycle ⟨0x400070, .general⟩ .initial =
        .error (.malformed ⟨0x400070, f.address .sampleCycle ⟨0x400070, .general⟩, what⟩) after ∧
      f.Fails .sampleCycle ⟨0x400070, .general⟩ what ∧
      f.address .sampleCycle ⟨0x400070, .general⟩ ≤ 0x400088 := by
  refine ⟨(readBases_exact .sampleCycle ⟨0x400008, .general⟩ .initial rfl).2.2 0 _
    written_sampleCycle, ?_⟩
  have count : Context.sampleCycle.image.readInt
      (BaseField.count.address Context.sampleCycle.image ⟨0x400070, .general⟩) 4 false =
      .ok (some ((2 : Nat) : Int)) := by decide +kernel
  -- It has two bases, and the second pointer leads to no class.
  have not : ¬ ∃ n, Describable .sampleCycle ⟨0x400070, .general⟩ n := by
    rintro ⟨n, describable⟩
    have two := describable.count
    rw [count] at two
    obtain rfl : 2 = n := Int.ofNat.inj (Option.some.inj (Except.ok.inj two))
    obtain ⟨place, c, resolved, identified⟩ := describable.pointer 1 (by decide)
    exact not_fails_of_pointer resolved identified _ fails_sampleCycle
  obtain ⟨f, what, after, stopped, fails, -, first⟩ :=
    (readBases_exact .sampleCycle ⟨0x400070, .general⟩ .initial rfl).2.1 trivial (by decide) not
  exact ⟨f, what, after, stopped, fails, first _ _ fails_sampleCycle⟩

end TypeInfo

end ItaniumRtti
