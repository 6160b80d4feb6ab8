import ItaniumRtti.Code.Detector
import ItaniumRtti.Proofs.Code.Facts
import ItaniumRtti.Proofs.Recover
import Mathlib.Data.List.Forall2

namespace ItaniumRtti

/-!
# Where stores are found

The code of a function is read from its address on, each instruction where the one before ends, up
to the nearest of several ends.  Every store that is reported is one instruction of this code, and
no two stores are the same one.

* `Listing.Reaches` — instructions that are met on the way;
* `Listing.mem_run_iff` — a run has all of them that end in time, so its fuel is enough;
* `Bound.Admits`, `Image.le_codeStop_iff` — where the code of a function ends;
* `Instruction.BelongsTo`, `Image.mem_codeOf_iff` — the instructions of a function;
* `VptrStore.MadeBy`, `Facts.made_of_stores` — a report and the instruction that it is about;
* `Image.storesIn_distinct` — the stores of a function are distinct instructions of it.
-/

/-! ### Runs of a listing -/

/-- The address after the last byte. -/
def Instruction.stop (i : Instruction) : Int :=
  i.address + i.size

namespace Listing

/-- The last instruction is met when code is read from an address on, each instruction where the one
    before ends. -/
inductive Reaches (listing : Listing) : Int → Instruction → Prop where
  /-- It stands at the address. -/
  | here {start : Int} {i : Instruction} : listing.at? start = some i → Reaches listing start i
  /-- It is met after the instruction there. -/
  | later {start : Int} {first i : Instruction} : listing.at? start = some first →
      Reaches listing first.stop i → Reaches listing start i

variable {listing : Listing} {start stop : Int} {i j : Instruction}

theorem mem_of_at? (found : listing.at? start = some i) : i ∈ listing :=
  List.mem_of_find?_eq_some found

theorem address_of_at? (found : listing.at? start = some i) : i.address = start := by
  simpa using List.find?_some found

theorem Reaches.mem (reached : listing.Reaches start i) : i ∈ listing := by
  induction reached with
  | here found => exact mem_of_at? found
  | later _ _ ih => exact ih

/-- A run meets its instructions one after the other, and they end in time. -/
theorem reaches_of_mem_runFrom {fuel : Nat} (member : i ∈ listing.runFrom stop fuel start) :
    listing.Reaches start i ∧ i.stop ≤ stop := by
  induction fuel generalizing start with
  | zero => cases member
  | succ fuel ih =>
    rw [runFrom] at member
    split at member
    · cases member
    next first found =>
    split at member
    · next ends =>
      rcases List.mem_cons.mp member with rfl | later
      · exact ⟨.here found, ends⟩
      · obtain ⟨reached, last⟩ := ih later
        exact ⟨.later found reached, last⟩
    · cases member

/-- A run goes on from an instruction that ends in time. -/
theorem runFrom_of_at? (found : listing.at? start = some i) (ends : i.stop ≤ stop) (fuel : Nat) :
    listing.runFrom stop (fuel + 1) start = i :: listing.runFrom stop fuel i.stop := by
  rw [runFrom, found]
  exact if_pos ends

/-- The instructions that do not stand before `start`. -/
def ahead (listing : Listing) (start : Int) : List Instruction :=
  listing.filter (start ≤ ·.address)

section

variable (positive : ∀ i ∈ listing, 0 < i.size)
include positive

/-- Reading goes forward. -/
theorem Reaches.start_le (reached : listing.Reaches start i) : start ≤ i.address := by
  induction reached with
  | here found => exact (address_of_at? found).ge
  | later found _ ih =>
    have size := positive _ (mem_of_at? found)
    have address := address_of_at? found
    rw [Instruction.stop] at ih
    omega

/-- Of two instructions that are met, one ends before the other starts. -/
theorem Reaches.apart (first : listing.Reaches start i) (second : listing.Reaches start j) :
    i = j ∨ i.stop ≤ j.address ∨ j.stop ≤ i.address := by
  -- Two ways of reading from one address go the same way, so one of them is the longer.
  induction first with
  | here found =>
    cases second with
    | here same =>
      cases found.symm.trans same
      exact .inl rfl
    | later same reached =>
      cases found.symm.trans same
      exact .inr (.inl (reached.start_le positive))
  | later found reached ih =>
    cases second with
    | here same =>
      cases found.symm.trans same
      exact .inr (.inr (reached.start_le positive))
    | later same more =>
      cases found.symm.trans same
      exact ih more

/-- After each instruction there are fewer ahead. -/
theorem length_ahead_lt (found : listing.at? start = some i) :
    (listing.ahead i.stop).length < (listing.ahead start).length := by
  have member := mem_of_at? found
  have size := positive i member
  have address := address_of_at? found
  have fewer : listing.ahead i.stop = (listing.ahead start).filter (i.stop ≤ ·.address) := by
    rw [ahead, ahead, List.filter_filter]
    refine List.filter_congr fun j _ => ?_
    rw [Bool.eq_iff_iff, Bool.and_eq_true, decide_eq_true_eq, decide_eq_true_eq, Instruction.stop]
    omega
  rw [fewer]
  -- The instruction itself is no longer ahead.
  refine List.length_filter_lt_length_iff_exists.mpr ⟨i, ?_, ?_⟩
  · exact List.mem_filter.mpr ⟨member, by simp [address]⟩
  · rw [decide_eq_true_eq, Instruction.stop]
    omega

/-- What is met and ends in time is in the run if there is fuel for all that is ahead. -/
theorem mem_runFrom_of_reaches (reached : listing.Reaches start i) (ends : i.stop ≤ stop)
    {fuel : Nat} (enough : (listing.ahead start).length ≤ fuel) :
    i ∈ listing.runFrom stop fuel start := by
  induction reached generalizing fuel with
  | here found =>
    have fewer := length_ahead_lt positive found
    obtain ⟨fuel, rfl⟩ : ∃ n, fuel = n + 1 := ⟨fuel - 1, by omega⟩
    rw [runFrom_of_at? found ends]
    exact List.mem_cons_self
  | @later start first i found reached ih =>
    have fewer := length_ahead_lt positive found
    obtain ⟨fuel, rfl⟩ : ∃ n, fuel = n + 1 := ⟨fuel - 1, by omega⟩
    -- what is met later ends in time, so this one does
    have inTime : first.stop ≤ stop := by
      have size := positive i reached.mem
      have order := reached.start_le positive
      rw [Instruction.stop] at ends
      omega
    rw [runFrom_of_at? found inTime]
    exact List.mem_cons_of_mem _ (ih ends (by omega))

/-- **A run** has the instructions that are met and end in time. -/
theorem mem_run_iff : i ∈ listing.run start stop ↔ listing.Reaches start i ∧ i.stop ≤ stop := by
  refine ⟨reaches_of_mem_runFrom, fun ⟨reached, ends⟩ => ?_⟩
  exact mem_runFrom_of_reaches positive reached ends (List.length_filter_le _ _)

/-- In a run each instruction ends before the later ones start. -/
theorem pairwise_runFrom (fuel : Nat) (start : Int) :
    (listing.runFrom stop fuel start).Pairwise fun i j => i.stop ≤ j.address := by
  induction fuel generalizing start with
  | zero => exact .nil
  | succ fuel ih =>
    rw [runFrom]
    split
    · exact .nil
    split
    · refine List.pairwise_cons.mpr ⟨fun j later => ?_, ih _⟩
      exact (reaches_of_mem_runFrom later).1.start_le positive
    · exact .nil

/-- Each instruction of a run ends before the next one starts. -/
theorem pairwise_run (start stop : Int) :
    (listing.run start stop).Pairwise fun i j => i.stop ≤ j.address :=
  pairwise_runFrom positive listing.length start

end

/-- What stands before the first return of a run. -/
theorem mem_takeWhile_iff {run : List Instruction}
    (ordered : run.Pairwise fun i j => i.stop ≤ j.address) (positive : ∀ i ∈ run, 0 < i.size) :
    i ∈ run.takeWhile (·.operation ≠ .ret) ↔
      i ∈ run ∧ ∀ j ∈ run, j.operation = .ret → i.stop ≤ j.address := by
  induction run with
  | nil => simp
  | cons first rest ih =>
    obtain ⟨before, ordered⟩ := List.pairwise_cons.mp ordered
    obtain ⟨size, sizes⟩ := List.forall_mem_cons.mp positive
    specialize ih ordered sizes
    by_cases returns : first.operation = .ret
    · rw [List.takeWhile_cons_of_neg (by simpa using returns)]
      refine ⟨fun member => absurd member List.not_mem_nil, fun ⟨member, early⟩ => ?_⟩
      -- nothing of the run ends before its first instruction starts
      have early := early first List.mem_cons_self returns
      rw [Instruction.stop] at early
      rcases List.mem_cons.mp member with rfl | later
      · omega
      · have order := before i later
        have positive := sizes i later
        rw [Instruction.stop] at order
        omega
    · rw [List.takeWhile_cons_of_pos (by simpa using returns), List.mem_cons, List.mem_cons, ih]
      constructor
      · rintro (rfl | ⟨later, early⟩)
        · exact ⟨.inl rfl, List.forall_mem_cons.mpr
            ⟨fun isReturn => absurd isReturn returns, fun j member _ => before j member⟩⟩
        · exact ⟨.inr later, List.forall_mem_cons.mpr
            ⟨fun isReturn => absurd isReturn returns, early⟩⟩
      · rintro ⟨rfl | later, early⟩
        · exact .inl rfl
        · exact .inr ⟨later, (List.forall_mem_cons.mp early).2⟩

/-- What a run has before its first return: a return that is met after the run's end does not
    matter. -/
theorem mem_run_takeWhile_iff (positive : ∀ i ∈ listing, 0 < i.size) :
    i ∈ (listing.run start stop).takeWhile (·.operation ≠ .ret) ↔
      i ∈ listing.run start stop ∧
        ∀ j, listing.Reaches start j → j.operation = .ret → i.stop ≤ j.address := by
  have met {j : Instruction} (member : j ∈ listing.run start stop) : listing.Reaches start j :=
    ((mem_run_iff positive).mp member).1
  have sizes : ∀ j ∈ listing.run start stop, 0 < j.size := fun j member =>
    positive j (met member).mem
  rw [mem_takeWhile_iff (pairwise_run positive start stop) sizes]
  constructor
  · rintro ⟨member, early⟩
    refine ⟨member, fun j reached returns => ?_⟩
    by_cases inside : j.stop ≤ stop
    · exact early j ((mem_run_iff positive).mpr ⟨reached, inside⟩) returns
    · have ends := ((mem_run_iff positive).mp member).2
      have size := sizes i member
      -- the return ends after `i` does, so it neither is `i` nor comes before it
      rcases (met member).apart positive reached with rfl | before | after
      · exact absurd ends inside
      · exact before
      · rw [Instruction.stop] at ends inside after
        omega
  · rintro ⟨member, early⟩
    exact ⟨member, fun j inside => early j (met inside)⟩

end Listing

/-! ### Where the code of a function ends -/

/-- `n` is at most the bound.  Nothing is at most what is no number. -/
def Bound.Admits (n : Int) : Bound → Prop
  | .whole most => n ≤ most
  | .real (.infinite negative) => negative = false
  | .real x => ∃ most ∈ x.floor?, n ≤ most
  | .unfit => False

/-- The size of a function, or the limit that stands for it if it is unknown. -/
def Function.limit (f : Function) (maxSize : Bound) : Bound :=
  if f.size = 0 then maxSize else .whole f.size

/-- A quotient rounded up is at most one more than rounded down. -/
theorem neg_neg_ediv_le (x : Int) {d : Int} (positive : 0 < d) : -(-x / d) ≤ x / d + 1 := by
  have below := Int.lt_ediv_add_one_mul_self x positive
  have least : -(x / d + 1) ≤ -x / d := by
    rw [Int.le_ediv_iff_mul_le positive, Int.neg_mul]
    omega
  omega

/-- No number has a fraction with denominator zero. -/
theorem binaryFraction_pos (mantissa : Nat) (exponent : Int) :
    0 < (binaryFraction mantissa exponent).2 := by
  rw [binaryFraction]
  split
  · exact Nat.one_pos
  · exact Nat.pow_pos (by decide)

/-- No whole number lies between those around a finite number, and the lower one is not positive if
    the number is negative. -/
theorem Real64.floor?_finite (negative : Bool) (mantissa : Nat) (exponent : Int) :
    ∃ floor ceiling, (Real64.finite negative mantissa exponent).floor? = some floor ∧
      (Real64.finite negative mantissa exponent).ceiling? = some ceiling ∧ ceiling ≤ floor + 1 ∧
      (negative = true → floor ≤ 0) := by
  have positive := binaryFraction_pos mantissa exponent
  rw [floor?, ceiling?]
  generalize binaryFraction mantissa exponent = fraction at positive ⊢
  obtain ⟨num, den⟩ := fraction
  replace positive : (0 : Int) < den := Int.natCast_pos.mpr positive
  refine ⟨_, _, rfl, rfl, ?_, ?_⟩
  · -- The ceiling is the floor of the opposite number, with the sign changed.
    cases negative with
    | true => simpa using neg_neg_ediv_le (-num : Int) positive
    | false => simpa using neg_neg_ediv_le (num : Int) positive
  · rintro rfl
    have low : -(num : Int) ≤ 0 := by omega
    simpa using Int.ediv_le_ediv positive low

namespace Bound

/-- Code of `n` bytes is examined if it is there and the bound admits it. -/
theorem le_codeSize_iff {limit : Bound} {room size n : Int} (sized : limit.codeSize room = .ok size)
    (positive : 0 < n) : n ≤ size ↔ n ≤ room ∧ limit.Admits n := by
  cases limit with
  | unfit => cases sized
  | whole most =>
    cases sized
    rw [Admits]
    omega
  | real x =>
    cases x with
    | nan =>
      cases sized
      simp only [Admits, Real64.floor?, Option.not_mem_none, false_and, exists_false, and_false,
        iff_false]
      omega
    | infinite negative =>
      cases sized
      cases negative <;> simp [Admits, positive]
    | finite negative mantissa exponent =>
      obtain ⟨floor, ceiling, isFloor, isCeiling, near, sign⟩ :=
        Real64.floor?_finite negative mantissa exponent
      have admits : (Bound.real (.finite negative mantissa exponent)).Admits n ↔ n ≤ floor := by
        simp [Admits, isFloor]
      rw [codeSize, isCeiling, Option.any_some] at sized
      rw [admits]
      split at sized
      · next roomy =>
        -- the number exceeds the room, so its floor is not below it
        cases sized
        have roomy := of_decide_eq_true roomy
        omega
      · split at sized
        · next below =>
          -- a negative number admits no code at all
          cases sized
          have sign := sign (Bool.and_eq_true_iff.mp below).1
          omega
        · cases sized

end Bound

namespace Image

variable {img : Image}

/-- Of the bytes from an address on, those are read that were asked for and are there. -/
theorem le_length_readBytes?_iff {address : Int} {b : Block}
    (found : img.blockAt? address = some b) (initialized : b.initialized = true) {size n : Int}
    (fits : address + size ≤ b.stop) (positive : 0 < n) :
    n ≤ ((img.readBytes? address size).getD []).length ↔
      n ≤ size ∧ address + n ≤ b.start + b.data.size := by
  have start := (mem_of_blockAt? found).2.1
  rw [readBytes?, found]
  dsimp only
  -- A negative size has no bytes at all.
  by_cases negative : size < 0
  · simp only [negative, decide_true, Bool.true_or, if_true, Option.getD_none, List.length_nil]
    omega
  · have contains := (b.contains_iff address size).mpr ⟨start, fits⟩
    simp only [negative, contains, initialized, decide_false, Bool.not_true, Bool.or_self,
      Bool.false_eq_true, if_false, Option.getD_some, length_bytesAt]
    omega

/-- **Where the code of a function ends**: with its size or the limit, with its block or with the
    block's contents, whatever comes first. -/
theorem le_codeStop_iff {maxSize : Bound} {f : Function} {stop address : Int}
    (stops : img.codeStop maxSize f = .ok stop) (after : f.address < address) :
    address ≤ stop ↔ (f.limit maxSize).Admits (address - f.address) ∧
      ∃ b, img.blockAt? f.address = some b ∧ address ≤ b.stop ∧
        address ≤ b.start + b.data.size := by
  rw [codeStop] at stops
  cases block : (img.blockAt? f.address).filter (·.initialized) with
  | none =>
    rw [block] at stops
    cases stops
    refine ⟨fun before => by omega, ?_⟩
    rintro ⟨-, b, found, -, inside⟩
    -- the block has no contents, so there is no code
    have empty : ¬ b.initialized = true := by simpa [found] using block
    have start := (mem_of_blockAt? found).2.1
    rw [Block.initialized, decide_eq_true_eq] at empty
    omega
  | some b =>
    rw [block] at stops
    obtain ⟨size, sized, stops⟩ := of_except_bind_ok stops
    cases stops
    obtain ⟨found, initialized⟩ := Option.filter_eq_some_iff.mp block
    have covered := (mem_of_blockAt? found).2.2
    have examined {n : Int} (positive : 0 < n) :
        n ≤ size ↔ n ≤ b.stop - f.address ∧ (f.limit maxSize).Admits n :=
      Bound.le_codeSize_iff sized positive
    -- what is examined never leaves the block, so reading it can only be cut by the contents
    have fits : f.address + size ≤ b.stop := by
      by_cases code : 0 < size
      · have room := ((examined code).mp le_rfl).1
        omega
      · omega
    have read := @le_length_readBytes?_iff img f.address b found initialized size
      (address - f.address) fits (by omega)
    rw [examined (by omega)] at read
    rw [found]
    constructor
    · intro inside
      obtain ⟨⟨room, admits⟩, contents⟩ := read.mp (by omega)
      exact ⟨admits, b, rfl, by omega, by omega⟩
    · rintro ⟨admits, _, same, room, contents⟩
      cases same
      have inside := read.mpr ⟨⟨by omega, admits⟩, by omega⟩
      omega

end Image

/-! ### The instructions of a function -/

/-- `i` is one of the instructions of `f`. -/
structure Instruction.BelongsTo (img : Image) (listing : Listing) (maxSize : Bound) (f : Function)
    (i : Instruction) : Prop where
  /-- It is met when code is read from the function's address on. -/
  reached : listing.Reaches f.address i
  /-- It does not start before the function. -/
  start : f.address ≤ i.address
  /-- It ends within the size of the function, or within the limit if the size is unknown. -/
  size : (f.limit maxSize).Admits (i.stop - f.address)
  /-- It ends within the function's block and within the block's contents. -/
  block : ∃ b, img.blockAt? f.address = some b ∧ i.stop ≤ b.stop ∧ i.stop ≤ b.start + b.data.size
  /-- It ends before the first return if the size is unknown. -/
  early : f.size = 0 → ∀ j, listing.Reaches f.address j → j.operation = .ret → i.stop ≤ j.address

/-- `i` moves something of a pointer's size to memory. -/
def Instruction.MovesPointer (img : Image) (i : Instruction) : Prop :=
  ∃ place source, i.operation = .move (.memory place) source ∧ place.size = img.ptr

namespace Image

variable {img : Image} {listing : Listing} {maxSize : Bound} {f : Function}
  {code : List Instruction}

/-- The code of a function is a run up to its end, cut before the first return if its size is
    unknown. -/
theorem of_codeOf (coded : img.codeOf listing maxSize f = .ok code) :
    ∃ stop, img.codeStop maxSize f = .ok stop ∧
      code = if f.size = 0 then (listing.run f.address stop).takeWhile (·.operation ≠ .ret)
        else listing.run f.address stop := by
  obtain ⟨stop, stops, coded⟩ := of_except_bind_ok coded
  cases coded
  exact ⟨stop, stops, rfl⟩

section

variable (positive : ∀ i ∈ listing, 0 < i.size) (coded : img.codeOf listing maxSize f = .ok code)
include positive coded

/-- **The instructions of a function.** -/
theorem mem_codeOf_iff {i : Instruction} : i ∈ code ↔ i.BelongsTo img listing maxSize f := by
  obtain ⟨stop, stops, rfl⟩ := of_codeOf coded
  -- in all cases an instruction of the run, and of one cut short if the size is unknown
  have cut : (i ∈ if f.size = 0 then (listing.run f.address stop).takeWhile (·.operation ≠ .ret)
        else listing.run f.address stop) ↔
      i ∈ listing.run f.address stop ∧ (f.size = 0 → ∀ j, listing.Reaches f.address j →
        j.operation = .ret → i.stop ≤ j.address) := by
    split
    · next unknown => simp only [Listing.mem_run_takeWhile_iff positive, unknown, true_implies]
    · next known => simp only [known, false_implies, and_true]
  have after (reached : listing.Reaches f.address i) : f.address < i.stop := by
    have start := reached.start_le positive
    have size := positive i reached.mem
    rw [Instruction.stop]
    omega
  rw [cut, Listing.mem_run_iff positive]
  constructor
  · rintro ⟨⟨reached, inside⟩, early⟩
    obtain ⟨size, block⟩ := (le_codeStop_iff stops (after reached)).mp inside
    exact ⟨reached, reached.start_le positive, size, block, early⟩
  · intro belongs
    have inside := (le_codeStop_iff stops (after belongs.reached)).mpr ⟨belongs.size, belongs.block⟩
    exact ⟨⟨belongs.reached, inside⟩, belongs.early⟩

/-- The instructions of a function stand in address order. -/
theorem pairwise_codeOf : code.Pairwise fun i j => i.address < j.address := by
  obtain ⟨stop, -, rfl⟩ := of_codeOf coded
  have ordered : (listing.run f.address stop).Pairwise fun i j => i.address < j.address := by
    refine (Listing.pairwise_run positive f.address stop).imp_of_mem fun {i j} first _ ends => ?_
    have size := positive i ((Listing.mem_run_iff positive).mp first).1.mem
    rw [Instruction.stop] at ends
    omega
  split
  · exact ordered.sublist (List.takeWhile_sublist _)
  · exact ordered

end

/-- The code of a function can be told if its size is known or the limit is a whole number. -/
theorem codeOf_ok (img : Image) (listing : Listing)
    (whole : f.size = 0 → ∃ most, maxSize = .whole most) :
    ∃ code, img.codeOf listing maxSize f = .ok code := by
  have limited : ∃ most, f.limit maxSize = .whole most := by
    rw [Function.limit]
    split
    · next unknown => exact whole unknown
    · -- A known size is a whole number.
      exact ⟨_, rfl⟩
  obtain ⟨most, limited⟩ := limited
  have stops : ∃ stop, img.codeStop maxSize f = .ok stop := by
    rw [codeStop, ← Function.limit, limited]
    split
    · exact ⟨_, rfl⟩
    · exact ⟨_, rfl⟩
  obtain ⟨stop, stops⟩ := stops
  rw [codeOf, stops]
  exact ⟨_, rfl⟩

end Image

/-! ### Reports -/

/-- What is reported is a move by `i`. -/
structure VptrStore.MadeBy (img : Image) (store : VptrStore) (i : Instruction) : Prop where
  /-- The store is that instruction. -/
  site : store.site = i.address
  /-- The value is a proper pointer. -/
  value : store.value ≠ 0
  /-- The instruction moves a pointer to memory. -/
  moves : i.MovesPointer img

namespace VptrStore

variable {img : Image} {code : List Instruction} {stores : List VptrStore}
  (made : List.SublistForall₂ (MadeBy img) stores code)
include made

/-- Sites are addresses of the code, in the same order. -/
theorem sites_sublist : (stores.map (·.site)).Sublist (code.map (·.address)) := by
  induction made with
  | nil => exact List.nil_sublist _
  | cons first _ ih =>
    rw [List.map_cons, List.map_cons, first.site]
    exact ih.cons_cons _
  | cons_right _ ih => exact ih.cons _

/-- Each store that is reported was made. -/
theorem exists_maker {s : VptrStore} (member : s ∈ stores) : ∃ i ∈ code, s.MadeBy img i := by
  induction made with
  | nil => cases member
  | cons first _ ih =>
    rcases List.mem_cons.mp member with rfl | later
    · exact ⟨_, List.mem_cons_self, first⟩
    · obtain ⟨i, inside, madeBy⟩ := ih later
      exact ⟨i, List.mem_cons_of_mem _ inside, madeBy⟩
  | cons_right _ ih =>
    obtain ⟨i, inside, madeBy⟩ := ih member
    exact ⟨i, List.mem_cons_of_mem _ inside, madeBy⟩

end VptrStore

namespace Facts

variable {f next : Facts} {img : Image} {i : Instruction} {code : List Instruction}
  {reported : List VptrStore}

/-- Only moves of pointers to memory are reported. -/
theorem Stepped.made {store : Option VptrStore} (stepped : f.Stepped img i next store)
    {s : VptrStore} (found : store = some s) : s.MadeBy img i := by
  cases stepped with
  | @stored place source is pointer =>
    obtain ⟨v, known, rfl⟩ := Option.map_eq_some_iff.mp found
    have nonzero : v ≠ 0 := of_decide_eq_true (Option.filter_eq_some_iff.mp known).2
    exact ⟨rfl, nonzero, place, source, is, pointer⟩
  | call => cases found
  | assigned => cases found
  | added => cases found
  | overwrote => cases found

/-- **The stores of a run** are moves by some of its instructions, in their order. -/
theorem made_of_stores (found : f.stores img code = .ok reported) :
    List.SublistForall₂ (VptrStore.MadeBy img) reported code := by
  induction code generalizing f reported with
  | nil =>
    cases found
    exact .nil
  | cons i rest ih =>
    obtain ⟨next, store, more, step, later, rfl⟩ := of_stores_cons found
    cases made : store with
    | none => exact .cons_right (ih later)
    | some s => exact .cons ((stepped_of_step step).made made) (ih later)

/-- A move of an immediate is reported, whatever is known. -/
theorem step_immediate {place : MemoryOperand} {v : Int}
    (is : i.operation = .move (.memory place) (.immediate v)) (pointer : place.size = img.ptr)
    (nonzero : img.width.wrap v ≠ 0) {store : Option VptrStore}
    (step : f.step img i = .ok (next, store)) :
    ∃ s, store = some s ∧ s.site = i.address ∧ s.value = img.width.wrap v := by
  rw [Facts.step, is] at step
  dsimp only at step
  rw [if_neg (not_not_intro pointer)] at step
  cases step
  have known : (f.operandConstant? img.width (.immediate v)).filter (· ≠ 0) =
      some (img.width.wrap v) := Option.filter_eq_some_iff.mpr ⟨rfl, decide_eq_true nonzero⟩
  rw [storeOf?, known]
  exact ⟨_, rfl, rfl, rfl⟩

/-- A pointer that is moved as an immediate is always reported, since nothing has to be known for
    it. -/
theorem mem_stores_of_immediate (found : f.stores img code = .ok reported) (member : i ∈ code)
    {place : MemoryOperand} {v : Int} (is : i.operation = .move (.memory place) (.immediate v))
    (pointer : place.size = img.ptr) (nonzero : img.width.wrap v ≠ 0) :
    ∃ s ∈ reported, s.site = i.address ∧ s.value = img.width.wrap v := by
  induction code generalizing f reported with
  | nil => cases member
  | cons first rest ih =>
    obtain ⟨next, store, more, step, later, rfl⟩ := of_stores_cons found
    rcases List.mem_cons.mp member with rfl | member
    · obtain ⟨s, rfl, site, value⟩ := step_immediate is pointer nonzero step
      exact ⟨s, List.mem_append_left _ (by simp), site, value⟩
    · obtain ⟨s, inside, site, value⟩ := ih later member
      exact ⟨s, List.mem_append_right _ inside, site, value⟩

/-- In a known byte order what follows a move can always be told. -/
theorem afterMove_ok (readable : img.order.Known) (f : Facts) (i : Instruction) (register : String)
    (source : Operand) : ∃ next, f.afterMove img i register source = .ok next := by
  cases source with
  | immediate value => exact ⟨_, rfl⟩
  | register name => exact ⟨_, rfl⟩
  | memory place =>
    rw [afterMove]
    split
    · exact ⟨_, rfl⟩
    split
    · exact ⟨_, rfl⟩
    next address _ =>
    obtain ⟨value, resolved⟩ := img.resolve_ok readable address
    rw [resolved]
    cases value with
    | none => exact ⟨_, rfl⟩
    | some value => exact ⟨_, rfl⟩

/-- So can what follows any instruction. -/
theorem step_ok (readable : img.order.Known) (f : Facts) (i : Instruction) :
    ∃ outcome, f.step img i = .ok outcome := by
  rw [Facts.step]
  cases i.operation with
  | move target source =>
    cases target with
    | memory place =>
      by_cases pointer : place.size = img.ptr
      · exact ⟨_, if_neg (not_not_intro pointer)⟩
      · exact ⟨_, if_pos pointer⟩
    | register name =>
      -- only a load reads the program
      obtain ⟨next, moved⟩ := f.afterMove_ok readable i (img.width.registerName name) source
      dsimp only
      rw [moved]
      exact ⟨_, rfl⟩
    | immediate value => exact ⟨_, rfl⟩
  | loadAddress target source => cases target <;> exact ⟨_, rfl⟩
  | add target source =>
    cases target with
    | register name =>
      cases source with
      | immediate addend =>
        dsimp only
        cases f.constant? (img.width.registerName name) <;> exact ⟨_, rfl⟩
      | register _ => exact ⟨_, rfl⟩
      | memory _ => exact ⟨_, rfl⟩
    | memory place => exact ⟨_, rfl⟩
    | immediate value => exact ⟨_, rfl⟩
  | call => exact ⟨_, rfl⟩
  | ret => exact ⟨_, rfl⟩
  | other => exact ⟨_, rfl⟩

/-- The stores of any run can be told in a program of a known byte order. -/
theorem stores_ok (readable : img.order.Known) (f : Facts) (code : List Instruction) :
    ∃ reported, f.stores img code = .ok reported := by
  induction code generalizing f with
  | nil => exact ⟨[], rfl⟩
  | cons i rest ih =>
    obtain ⟨⟨next, store⟩, step⟩ := f.step_ok readable i
    obtain ⟨more, later⟩ := ih next
    refine ⟨store.toList ++ more, ?_⟩
    rw [stores, step]
    show (next.stores img rest >>= fun more => .ok (store.toList ++ more)) = _
    rw [later]
    rfl

end Facts

/-! ### The stores of a function -/

/-- **Stores are distinct instructions of their function.**  Of a function with or without a known
    size, the stores that are reported have increasing sites and values other than zero.  Each of
    them is a move of a pointer to memory, it is met when code is read from the function's address
    on, and it lies within the size or the limit, the block and the block's contents, and before the
    first return if the size is unknown.  All such moves of an immediate other than zero are
    reported.  The stores can be told unless the byte order or the limit is unfit. -/
theorem Image.storesIn_distinct (img : Image) (listing : Listing) (maxSize : Bound) (f : Function)
    (positive : ∀ i ∈ listing, 0 < i.size) :
    (img.order.Known → (f.size = 0 → ∃ most, maxSize = .whole most) →
      ∃ stores, img.storesIn listing maxSize f = .ok stores) ∧
    ∀ stores, img.storesIn listing maxSize f = .ok stores →
      stores.Pairwise (fun s t => s.site < t.site) ∧
      (∀ s ∈ stores, s.value ≠ 0 ∧ ∃ i : Instruction, s.site = i.address ∧ i.MovesPointer img ∧
        i.BelongsTo img listing maxSize f) ∧
      (∀ (i : Instruction) (place : MemoryOperand) (v : Int),
        i.BelongsTo img listing maxSize f →
        i.operation = .move (.memory place) (.immediate v) → place.size = img.ptr →
        img.width.wrap v ≠ 0 → ∃ s ∈ stores, s.site = i.address ∧ s.value = img.width.wrap v) := by
  constructor
  · intro readable whole
    obtain ⟨code, coded⟩ := img.codeOf_ok listing whole
    rw [storesIn, coded]
    exact Facts.stores_ok readable _ code
  · intro stores reported
    obtain ⟨code, coded, found⟩ := of_except_bind_ok reported
    -- The order and the sites come from the code that the stores were made by.
    have made := Facts.made_of_stores found
    refine ⟨?increasing, fun s member => ?within, fun i place v belongs => ?immediates⟩
    case increasing =>
      have increasing : (code.map (·.address)).Pairwise (· < ·) :=
        List.pairwise_map.mpr (pairwise_codeOf positive coded)
      exact List.pairwise_map.mp (increasing.sublist (VptrStore.sites_sublist made))
    case within =>
      obtain ⟨i, inside, madeBy⟩ := VptrStore.exists_maker made member
      exact ⟨madeBy.value, i, madeBy.site, madeBy.moves, (mem_codeOf_iff positive coded).mp inside⟩
    case immediates =>
      exact Facts.mem_stores_of_immediate found ((mem_codeOf_iff positive coded).mpr belongs)

/-- Code that stores two pointers, returns, and goes on with a third one.  Its block is larger than
    its contents. -/
def Block.sampleStores : Block where
  start := 0x1000
  data := ⟨#[0x48, 0xc7, 0x07, 0x00, 0x30, 0x00, 0x00, 0x48, 0xc7, 0x47, 0x08, 0x10, 0x30, 0x00,
    0x00, 0xc3, 0x48, 0xc7, 0x47, 0x10, 0x20, 0x30, 0x00, 0x00]⟩
  size := 0x40
  executable := true

/-- A program with this code only. -/
def Image.sampleStores : Image where
  width := .wide
  order := .little
  arch := "x86_64"
  abi := none
  blocks := [.sampleStores]
  symbols := []
  relocations := ∅
  ordered := by decide

/-- The store after the return. -/
def Instruction.sampleLate : Instruction :=
  ⟨0x1010, 8, .move (.memory ⟨some "rdi", none, 0x10, 8⟩) (.immediate 0x3020), []⟩

/-- The instructions of this code. -/
def Listing.sampleStores : Listing :=
  [⟨0x1000, 7, .move (.memory ⟨some "rdi", none, 0, 8⟩) (.immediate 0x3000), []⟩,
   ⟨0x1007, 8, .move (.memory ⟨some "rdi", none, 8, 8⟩) (.immediate 0x3010), []⟩,
   ⟨0x100f, 1, .ret, ["rsp"]⟩, .sampleLate]

/-- Of a function of unknown size there, the first two are reported; the third one is no part of
    it. -/
theorem Image.storesIn_distinct_sampleStores : (∀ i ∈ Listing.sampleStores, 0 < i.size) ∧
    ∃ stores, sampleStores.storesIn .sampleStores (.whole 0x4000) { address := 0x1000 } =
        .ok stores ∧ stores.map (·.site) = [0x1000, 0x1007] ∧
      stores.Pairwise (fun s t => s.site < t.site) ∧
      (∀ s ∈ stores, s.value ≠ 0 ∧ ∃ i : Instruction, s.site = i.address ∧
        i.MovesPointer sampleStores ∧
        i.BelongsTo sampleStores .sampleStores (.whole 0x4000) { address := 0x1000 }) ∧
      ¬ Instruction.sampleLate.BelongsTo sampleStores .sampleStores (.whole 0x4000)
        { address := 0x1000 } := by
  have positive : ∀ i ∈ Listing.sampleStores, 0 < i.size := by decide
  obtain ⟨told, about⟩ := storesIn_distinct sampleStores .sampleStores (.whole 0x4000)
    { address := 0x1000 } positive
  obtain ⟨stores, reported⟩ := told (by decide) fun _ => ⟨0x4000, rfl⟩
  obtain ⟨increasing, within, immediates⟩ := about stores reported
  have computed : sampleStores.storesIn .sampleStores (.whole 0x4000) { address := 0x1000 } =
      .ok [{ site := 0x1000, value := 0x3000 }, { site := 0x1007, value := 0x3010 }] :=
    toOption_eq_some_iff.mp (by decide +kernel)
  cases computed.symm.trans reported
  refine ⟨positive, _, computed, rfl, increasing, within, fun belongs => ?_⟩
  -- If the late store belonged to the function, it would have been reported.
  obtain ⟨s, member, site, -⟩ := immediates .sampleLate _ _ belongs rfl rfl (by decide)
  have sites : ∀ s ∈ [({ site := 0x1000, value := 0x3000 } : VptrStore),
      { site := 0x1007, value := 0x3010 }], s.site ≠ 0x1010 := by decide
  exact sites s member site

end ItaniumRtti
