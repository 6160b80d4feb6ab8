import ItaniumRtti.Proofs.Vtable.Headers

namespace ItaniumRtti

/-!
# Runs of slots

What can stand in a slot, and where a run of slots ends, said of the words of the program.

* `Slot.Destroys` — a slot that holds a destructor;
* `Context.IsPureAt`, `Context.IsNullAt` — marker words and zero words;
* `Context.SlotAt` — a slot that the word at an address can be read as;
* `Group.RunEnds` — no slot follows;
* `Group.SlotRun` — a run of slots that goes as far as it can;
* `Group.slotsAt_settles` — the slots that are read are such a run.
-/

open Recover

/-- The slot holds a destructor: it is not pure, and the last part of its target's name starts with
    a tilde. -/
def Slot.Destroys (demangle : Demangler) (s : Slot) : Prop :=
  s.isPure = false ∧ ∃ name, s.targetName? = some name ∧ name ≠ "" ∧
    hasPrefix "~" (shortName demangle name) = true

theorem Slot.isDestructor_iff {demangle : Demangler} {s : Slot} :
    s.isDestructor demangle = true ↔ s.Destroys demangle := by
  simp only [isDestructor, Destroys, namesDestructor, Bool.and_eq_true, Bool.not_eq_true',
    Option.any_eq_true, decide_eq_true_eq]

namespace Context

variable (ctx : Context)

/-- The word at `address` stands for a pure virtual function, by its value or by its symbol. -/
def IsPureAt (address : Int) : Prop :=
  (∃ target, ctx.image.resolve address = .ok (some target) ∧
    ctx.roots.pureAddress = some target) ∨
  ∃ symbol, (ctx.image.relocationAt? address).bind (·.symbol) = some symbol ∧
    ctx.roots.pureSymbol = some symbol

/-- The word at `address` is zero, not relocated, and does not stand for a pure virtual function. -/
structure IsNullAt (address : Int) : Prop where
  /-- It is no marker. -/
  unmarked : ¬ ctx.IsPureAt address
  /-- It is zero. -/
  zero : ctx.image.resolve address = .ok (some 0)
  /-- The loader leaves it alone. -/
  plain : ctx.image.relocationAt? address = none

/-- The slots that the word at `address` can be read as, if `before` is the slot before it. -/
inductive SlotAt (before : Option Slot) (address : Int) : Slot → Prop where
  /-- A pure virtual function, of which no function is known. -/
  | pure {value : Option Int} : ctx.IsPureAt address → ctx.image.resolve address = .ok value →
      SlotAt before address
        { address := value, isPure := true,
          symbol := (ctx.image.relocationAt? address).bind (·.symbol) }
  /-- The deleting destructor that an abstract class lacks. -/
  | null : ctx.IsNullAt address → (∃ s, before = some s ∧ s.Destroys ctx.demangle) →
      SlotAt before address {}
  /-- A function or another address in the code. -/
  | code {target : Int} : ¬ ctx.IsPureAt address → ¬ ctx.IsNullAt address →
      ctx.image.resolve address = .ok (some target) →
      (ctx.image.functionAt? target).isSome = true ∨ ctx.image.isCode target = true →
      SlotAt before address
        { address := some target, function := ctx.image.functionAt? target,
          symbol := (ctx.image.relocationAt? address).bind (·.symbol) }
  /-- A symbol of another program, unless it is one of a type description or a table. -/
  | imported {r : Relocation} {symbol : String} : ¬ ctx.IsPureAt address →
      ctx.image.relocationAt? address = some r → r.symbol = some symbol →
      ctx.image.symbolAddress? symbol = none →
      (∀ start ∈ ["_ZTI", "_ZTS", "_ZTV", "_ZTT"], hasPrefix start symbol = false) →
      SlotAt before address { symbol := some symbol }

variable {ctx} {before : Option Slot} {address : Int} {s : Slot}

/-- A slot is pure exactly if the word stands for a pure virtual function. -/
theorem SlotAt.isPure_iff (slot : ctx.SlotAt before address s) :
    s.isPure = true ↔ ctx.IsPureAt address := by
  cases slot with
  | pure marked resolved => exact iff_of_true rfl marked
  | null null after => exact iff_of_false Bool.false_ne_true null.unmarked
  | code unmarked filled resolved target => exact iff_of_false Bool.false_ne_true unmarked
  | imported unmarked relocated named elsewhere start =>
    exact iff_of_false Bool.false_ne_true unmarked

/-- No function is known of a pure slot. -/
theorem SlotAt.function_of_isPure (slot : ctx.SlotAt before address s) (isPure : s.isPure = true) :
    s.function = none := by
  cases slot with
  | pure marked resolved => rfl
  | null null after => rfl
  | code unmarked filled resolved target => cases isPure
  | imported unmarked relocated named elsewhere start => rfl

/-- The test for a pure virtual function, of a word whose value is known. -/
theorem isPure_iff {value : Option Int} (resolved : ctx.image.resolve address = .ok value) :
    ctx.roots.isPure value ((ctx.image.relocationAt? address).bind (·.symbol)) = true ↔
      ctx.IsPureAt address := by
  -- The two tests, on the value and on the symbol, are of one form.
  have same : ∀ {α : Type} [DecidableEq α] (here marker : Option α),
      (here.isSome && here == marker) = true ↔ ∃ a, here = some a ∧ marker = some a := by
    intro α _ here marker
    cases here with
    | none => simp only [Option.isSome_none, Bool.false_and, reduceCtorEq, false_and, exists_false]
    | some a =>
      simp only [Option.isSome_some, Bool.true_and, beq_iff_eq, Option.some.injEq, exists_eq_left']
      exact eq_comm
  unfold Roots.isPure IsPureAt
  rw [Bool.or_eq_true, same, same, resolved, or_comm]
  simp only [Except.ok.injEq]

end Context

namespace Group

variable (ctx : Context) (g : Group)

/-- No slot stands at `address`, if `before` is the slot before it. -/
inductive RunEnds (known : Knowledge) (before : Option Slot) (address : Int) : Prop where
  /-- The word does not fit in the block. -/
  | outside : g.block.contains address ctx.image.ptr = false → RunEnds known before address
  /-- A symbol stands at a word that is not the first. -/
  | symbol : before ≠ none → ctx.image.hasSymbolAt address = true → RunEnds known before address
  /-- A secondary header stands at the word. -/
  | header {offset : Int} : g.secondaries = true → g.HeaderAt ctx known true address offset →
      RunEnds known before address
  /-- The word is zero and does not follow a destructor. -/
  | null : ctx.IsNullAt address → ¬ (∃ s, before = some s ∧ s.Destroys ctx.demangle) →
      RunEnds known before address
  /-- The word is zero, and the first of the offset words of a secondary header. -/
  | offsets {h : Header} {most : Int} : ctx.IsNullAt address → g.secondaries = true →
      g.Heads ctx known true true address h → ctx.limits.maxVcallOffsets.asWhole = .ok most →
      h.vcallOffsets.length ≤ most → RunEnds known before address
  /-- The word is no slot of any kind. -/
  | other : (∀ s, ¬ ctx.SlotAt before address s) → RunEnds known before address

/-- What is read at `address`: a slot that goes on the run, or nothing where the run ends. -/
inductive SlotRead (known : Knowledge) (before : Option Slot) (address : Int) :
    Option Slot → Prop where
  /-- The run ends. -/
  | ends : g.RunEnds ctx known before address → SlotRead known before address none
  /-- The run goes on. -/
  | slot {s : Slot} : ctx.SlotAt before address s → ¬ g.RunEnds ctx known before address →
      SlotRead known before address (some s)

/-- A run of slots from `address` on, where `before` is the slot before it.  It ends only where no
    slot stands. -/
inductive SlotRun (known : Knowledge) : Option Slot → Int → List Slot → Prop where
  /-- No slot stands at the word. -/
  | ends {before : Option Slot} {address : Int} : g.RunEnds ctx known before address →
      SlotRun known before address []
  /-- A slot stands at the word. -/
  | slot {before : Option Slot} {address : Int} {s : Slot} {rest : List Slot} :
      ctx.SlotAt before address s → ¬ g.RunEnds ctx known before address →
      SlotRun known (some s) (address + ctx.image.ptr) rest →
      SlotRun known before address (s :: rest)

variable {ctx g} {known : Knowledge} {before : Option Slot} {address : Int} {s : Slot}

/-! ### Slots that are read -/

/-- A slot is read where none of the reasons to end holds. -/
theorem not_runEnds (inside : g.block.contains address ctx.image.ptr = true)
    (clear : before ≠ none → ctx.image.hasSymbolAt address = false)
    (headless : g.secondaries = true → ∀ offset, ¬ g.HeaderAt ctx known true address offset)
    (slot : ctx.SlotAt before address s)
    (alone : ctx.IsNullAt address → g.secondaries = true → ∀ h most,
      g.Heads ctx known true true address h → ctx.limits.maxVcallOffsets.asWhole = .ok most →
      ¬ h.vcallOffsets.length ≤ most) : ¬ g.RunEnds ctx known before address := by
  -- Each reason to end is excluded by one of the hypotheses; a zero word is one that the slot rules
  -- out itself.
  intro ends
  cases ends with
  | outside outside => cases inside.symm.trans outside
  | symbol later symbol => cases symbol.symm.trans (clear later)
  | header secondaries header => exact headless secondaries _ header
  | null null first =>
    cases slot with
    | pure marked resolved => exact null.unmarked marked
    | null null after => exact first after
    | code unmarked filled resolved target => exact filled null
    | imported unmarked relocated named elsewhere start => cases null.plain.symm.trans relocated
  | offsets null secondaries heads limit few => exact alone null secondaries _ _ heads limit few
  | other other => exact other s slot

/-- A word that is no marker and not zero is a slot if it leads into the code or is imported. -/
theorem slotAt_iff {value : Option Int} (resolved : ctx.image.resolve address = .ok value)
    (unmarked : ¬ ctx.IsPureAt address) (filled : ¬ ctx.IsNullAt address) :
    ctx.SlotAt before address s ↔
      ((value.bind ctx.image.functionAt?).isSome || value.any ctx.image.isCode ||
        (value.isNone && ((ctx.image.relocationAt? address).bind (·.symbol)).any isSlotSymbol)) =
          true ∧
      s = { address := value, function := value.bind ctx.image.functionAt?,
            symbol := (ctx.image.relocationAt? address).bind (·.symbol) } := by
  constructor
  · intro slot
    cases slot with
    | pure marked _ => exact absurd marked unmarked
    | null null after => exact absurd null filled
    | code _ _ leads target =>
      cases resolved.symm.trans leads
      refine ⟨?_, rfl⟩
      rw [Option.bind_some, Option.any_some, Bool.or_eq_true, Bool.or_eq_true]
      exact .inl target
    | @imported r symbol _ relocated named elsewhere start =>
      -- A relocated word with a symbol of another program resolves to nothing.
      have leads : ctx.image.resolve address = .ok none := by
        rw [Image.resolve, relocated]
        simp only [Image.relocated?, named, elsewhere, Option.map_none]
      cases resolved.symm.trans leads
      rw [relocated, Option.bind_some, named]
      refine ⟨?_, rfl⟩
      simp only [Option.bind_none, Option.isSome_none, Option.any_none, Bool.or_self,
        Option.isNone_none, Bool.true_and, Bool.false_or, Option.any_some, isSlotSymbol,
        List.all_eq_true, Bool.not_eq_true']
      exact start
  · rintro ⟨holds, rfl⟩
    cases value with
    | some target =>
      rw [Option.isNone_some, Bool.false_and, Bool.or_false, Bool.or_eq_true, Option.bind_some,
        Option.any_some] at holds
      exact .code unmarked filled resolved holds
    | none =>
      simp only [Option.bind_none, Option.isSome_none, Option.any_none, Bool.or_self,
        Option.isNone_none, Bool.true_and, Bool.false_or, Option.any_eq_true,
        Option.bind_eq_some_iff] at holds
      obtain ⟨symbol, ⟨r, relocated, named⟩, start⟩ := holds
      have elsewhere : ctx.image.symbolAddress? symbol = none := by
        rw [Image.resolve, relocated] at resolved
        simp only [Image.relocated?, named, Except.ok.injEq, Option.map_eq_none_iff] at resolved
        exact resolved
      simp only [isSlotSymbol, List.all_eq_true, Bool.not_eq_true'] at start
      rw [relocated, Option.bind_some, named]
      exact .imported unmarked relocated named elsewhere start

/-- What is read at a zero word. -/
theorem nullSlot_settles {g : Group} (owned : ctx.Identified g.owner) (before : Option Slot)
    (inside : g.block.contains address ctx.image.ptr = true)
    (clear : before ≠ none → ctx.image.hasSymbolAt address = false)
    (null : ctx.IsNullAt address) :
    Settles ctx (fun known found =>
      (g.secondaries = true → ∀ offset, ¬ g.HeaderAt ctx known true address offset) →
      g.SlotRead ctx known before address found)
      (if !before.any (·.isDestructor ctx.demangle) then pure none
       else if g.secondaries then do
         if (← g.headerOf? ctx true address).isSome then pure none else pure (some {})
       else pure (some {})) := by
  have destroys : before.any (·.isDestructor ctx.demangle) = true ↔
      ∃ s, before = some s ∧ s.Destroys ctx.demangle := by
    simp only [Option.any_eq_true, Slot.isDestructor_iff]
  -- A zero word is the deleting destructor of an abstract class only right after a destructor.
  refine .ite (fun first => .pure fun known _ => .ends (.null null fun after => ?_))
    fun follows => ?_
  · rw [destroys.mpr after] at first
    cases first
  rw [Bool.not_eq_true', Bool.not_eq_false, destroys] at follows
  have slot : ctx.SlotAt before address {} := .null null follows
  refine .ite (fun secondaries => ?_) fun primary => .pure fun known headless => ?_
  · -- It may also be the first offset word of a secondary table, which is preferred.
    refine (headerOf?_settles owned true address).bind fun header _ => ?_
    refine .ite (fun found => .pure fun known iff headless => .ends ?_) fun missing =>
      .pure fun known iff headless => .slot slot ?_
    · obtain ⟨h, rfl⟩ := Option.isSome_iff_exists.mp found
      obtain ⟨heads, most, limit, few⟩ := (iff h).mp rfl
      exact .offsets null secondaries heads limit few
    · refine not_runEnds inside clear headless slot fun _ _ h most heads limit few => ?_
      rw [(iff h).mpr ⟨heads, most, limit, few⟩] at missing
      exact missing rfl
  · refine .slot slot (not_runEnds inside clear headless slot fun _ secondaries => ?_)
    exact absurd secondaries primary

/-- **What is read at a word** is a slot that it can be, unless the run ends there. -/
theorem slotAt?_settles {g : Group} (owned : ctx.Identified g.owner) (before : Option Slot)
    (inside : g.block.contains address ctx.image.ptr = true) :
    Settles ctx (fun known found => g.SlotRead ctx known before address found)
      (g.slotAt? ctx before.isNone (before.any (·.isDestructor ctx.demangle)) address) := by
  rw [slotAt?]
  refine .ite (fun symbol => .pure fun known => .ends ?_) fun clear => ?_
  · rw [Bool.and_eq_true, Bool.not_eq_true', Option.isNone_eq_false_iff] at symbol
    exact .symbol (Option.isSome_iff_ne_none.mp symbol.1) symbol.2
  replace clear : before ≠ none → ctx.image.hasSymbolAt address = false := by
    intro later
    rw [Option.isNone_eq_false_iff.mpr (Option.isSome_iff_ne_none.mpr later), Bool.not_false,
      Bool.true_and, Bool.not_eq_true] at clear
    exact clear
  extract_lets relocation symbol null rest
  -- what is read once no secondary header was found
  have word : Settles ctx (fun known found =>
      (g.secondaries = true → ∀ offset, ¬ g.HeaderAt ctx known true address offset) →
      g.SlotRead ctx known before address found) (rest ()) := by
    refine (Settles.lift _).bind fun value asked => ?_
    obtain ⟨-, resolved⟩ := asked
    refine .ite (fun marker => .pure fun known _ headless => ?_) fun other => ?_
    · have marked := (Context.isPure_iff resolved).mp marker
      have slot : ctx.SlotAt before address _ := .pure marked resolved
      refine .slot slot (not_runEnds inside clear headless slot fun null => ?_)
      exact absurd marked null.unmarked
    have unmarked : ¬ ctx.IsPureAt address :=
      fun marked => other ((Context.isPure_iff resolved).mpr marked)
    refine .ite (fun zero => ?_) fun filled => ?_
    · rw [Bool.and_eq_true, decide_eq_true_eq, Option.isNone_iff_eq_none] at zero
      have null : ctx.IsNullAt address := ⟨unmarked, zero.1 ▸ resolved, zero.2⟩
      exact (nullSlot_settles owned before inside clear null).mono fun known found read _ => read
    replace filled : ¬ ctx.IsNullAt address := by
      intro null
      cases resolved.symm.trans null.zero
      refine filled ?_
      rw [decide_eq_true rfl, Bool.true_and, Option.isNone_iff_eq_none]
      exact null.plain
    refine .ite (fun fits => .pure fun known _ headless => ?_) fun misfit =>
      .pure fun known _ _ => .ends (.other fun s slot => ?_)
    · have slot : ctx.SlotAt before address _ :=
        (slotAt_iff resolved unmarked filled).mpr ⟨fits, rfl⟩
      refine .slot slot (not_runEnds inside clear headless slot fun null => ?_)
      exact absurd null filled
    · exact misfit ((slotAt_iff resolved unmarked filled).mp slot).1
  refine .ite (fun secondaries => ?_) fun primary => word.mono fun known found read => ?_
  · refine (offsetAt?_settles owned true address).bind fun offset _ => ?_
    refine .ite (fun found => .pure fun known iff => .ends ?_) fun missing => ?_
    · obtain ⟨offset, rfl⟩ := Option.isSome_iff_exists.mp found
      exact .header secondaries ((iff offset).mp rfl)
    · refine word.mono fun known found read iff => read fun _ value header => ?_
      rw [(iff value).mpr header] at missing
      exact missing rfl
  · exact read fun secondaries => absurd secondaries primary

/-! ### Runs -/

/-- Nothing more is read once the words of the block are used up. -/
theorem slotsFrom_settles {g : Group} (owned : ctx.Identified g.owner) (words : Nat)
    (before : Option Slot) (address : Int)
    (room : g.block.stop < address + ctx.image.ptr * ((words + 1 : Nat) : Int)) :
    Settles ctx (fun known slots => g.SlotRun ctx known before address slots)
      (g.slotsFrom ctx words before.isNone (before.any (·.isDestructor ctx.demangle)) address) := by
  -- By induction on the words that are left.
  induction words generalizing before address with
  | zero =>
    -- The bound is no restriction: there is no room in the block for another word.
    refine .pure fun known => .ends (.outside ?_)
    rw [Bool.eq_false_iff, Ne, g.block.contains_iff]
    rw [ctx.image.nthWord_succ, ctx.image.nthWord_zero] at room
    omega
  | succ words ih =>
    rw [slotsFrom]
    refine .ite (fun outside => .pure fun known => .ends (.outside ?_)) fun inside => ?_
    · rw [Bool.not_eq_true'] at outside
      exact outside
    rw [Bool.not_eq_true', Bool.not_eq_false] at inside
    refine (slotAt?_settles owned before inside).bind fun found _ => ?_
    cases found with
    | none =>
      refine .pure fun known read => ?_
      cases read with
      | ends ends => exact .ends ends
    | some s =>
      rw [ctx.image.nthWord_succ] at room
      refine (ih (some s) _ room).bind fun slots _ => .pure fun known run read => ?_
      cases read with
      | slot slot goes => exact .slot slot goes run

/-- **The slots that are read** are a run that goes as far as it can. -/
theorem slotsAt_settles {g : Group} (owned : ctx.Identified g.owner) (address : Int) :
    Settles ctx (fun known slots => g.SlotRun ctx known none address slots)
      (g.slotsAt ctx address) := by
  have positive := ctx.image.ptr_pos
  refine slotsFrom_settles owned _ none address ?_
  have whole := Int.lt_ediv_add_one_mul_self (g.block.stop - address) positive
  have rounded : (g.block.stop - address) / ctx.image.ptr + 1 ≤
      ((((g.block.stop - address) / ctx.image.ptr).toNat + 1 : Nat) : Int) := by omega
  have enough := Int.mul_le_mul_of_nonneg_left rounded (Int.le_of_lt positive)
  rw [Int.mul_comm] at whole
  omega

namespace SlotRun

variable {front rest slots : List Slot}

/-- The slot before the word that follows one more slot. -/
theorem getLast?_cons_or (s : Slot) (front : List Slot) (before : Option Slot) :
    ((s :: front).getLast?).or before = front.getLast?.or (some s) := by
  rw [List.getLast?_cons, Option.some_or]
  cases front.getLast? with
  | none => rfl
  | some last => rfl

/-- Each slot of a run is one that the word can be, and the run does not end there. -/
theorem slotAt (run : g.SlotRun ctx known before address (front ++ s :: rest)) :
    ctx.SlotAt (front.getLast?.or before) (address + ctx.image.ptr * front.length) s ∧
      ¬ g.RunEnds ctx known (front.getLast?.or before)
        (address + ctx.image.ptr * front.length) := by
  induction front generalizing before address with
  | nil =>
    rw [List.length_nil, ctx.image.nthWord_zero, List.getLast?_nil, Option.none_or]
    cases run with
    | slot slot goes run => exact ⟨slot, goes⟩
  | cons first front ih =>
    rw [List.length_cons, ctx.image.nthWord_succ, getLast?_cons_or]
    cases run with
    | slot slot goes run => exact ih run

/-- A run ends after its last slot. -/
theorem runEnds (run : g.SlotRun ctx known before address slots) :
    g.RunEnds ctx known (slots.getLast?.or before)
      (address + ctx.image.ptr * slots.length) := by
  induction run with
  | ends ends =>
    rw [List.length_nil, ctx.image.nthWord_zero, List.getLast?_nil, Option.none_or]
    exact ends
  | slot slot goes run ih =>
    rw [List.length_cons, ctx.image.nthWord_succ, getLast?_cons_or]
    exact ih

/-- The slots of a run lie in the block, and no symbol stands after the first of them. -/
theorem word (run : g.SlotRun ctx known none address slots) {i : Nat} (listed : i < slots.length) :
    g.block.contains (address + ctx.image.ptr * i) ctx.image.ptr = true ∧
      (0 < i → ctx.image.hasSymbolAt (address + ctx.image.ptr * i) = false) := by
  -- Split the run at the slot, where no reason to end holds.
  have split : slots = slots.take i ++ slots[i] :: slots.drop (i + 1) := by
    rw [List.getElem_cons_drop, List.take_append_drop]
  have length : (slots.take i).length = i := List.length_take_of_le (Nat.le_of_lt listed)
  rw [split] at run
  obtain ⟨-, goes⟩ := run.slotAt
  rw [length, Option.or_none] at goes
  constructor
  · by_contra outside
    exact goes (.outside (Bool.eq_false_iff.mpr outside))
  · intro later
    by_contra symbol
    refine goes (.symbol ?_ (Bool.not_eq_false _ ▸ symbol))
    rw [Ne, List.getLast?_eq_none_iff]
    intro none
    rw [none, List.length_nil] at length
    omega

end SlotRun

end Group

end ItaniumRtti
