import ItaniumRtti.Proofs.Hierarchy.Preorder
import ItaniumRtti.Proofs.Vtable.Tiling

namespace ItaniumRtti

/-!
# Tables of vtables

A table of vtables is told by its first entry, the address point of the vtable, and its entries are
the longest run of words that lead into some vtable of the class.

* `TypeInfo.VttTarget` — where an entry may lead;
* `Context.VttEntries` — a run of entries that cannot be longer;
* `TypeInfo.of_vttAt?_ok` — what an answer says, and `TypeInfo.vttAt?_answered` when there is one;
* `Vtable.Tiled.covers_iff` — a vtable covers its own address point unless nothing follows it there;
* `Session.vtt_exact` — tables of vtables are exact.
-/

open Recover

theorem AddressRange.contains_iff {r : AddressRange} {address : Int} :
    r.contains address = true ↔ r.start ≤ address ∧ address < r.stop := by
  rw [contains, Bool.and_eq_true, decide_eq_true_eq, decide_eq_true_eq]

/-! ### Where entries lead -/

namespace TypeInfo

/-- The addresses to which an entry may lead in the table of vtables of the class `t` with the
    vtable `v`. -/
inductive VttTarget (ctx : Context) (known : Knowledge) (t : TypeInfo) (v : Vtable)
    (address : Int) : Prop
  /-- An address of the vtable. -/
  | own (starts : v.address ≤ address) (ends : address < v.stop)
  /-- An address of the vtable of a virtual base. -/
  | inherited {virtuals : List TypeInfo} {c : TypeInfo} {w : Vtable}
    (listed : t.virtualBases ctx known = .ok virtuals known) (member : c ∈ virtuals)
    (has : c.vtable ctx known = .ok w known) (valid : w.isValid = true)
    (starts : w.address ≤ address) (ends : address < w.stop)
  /-- An address of a vtable that is used while the class is being built: a symbol with a size
      names it. -/
  | construction {name : String} {symbol : Symbol}
    (named : t.typeName ctx known = .ok name known) (nonempty : name ≠ "")
    (listed : symbol ∈ ctx.image.symbolsWithPrefix (constructionPrefix ++ name))
    (sized : symbol.size ≠ 0)
    (starts : symbol.address ≤ address) (ends : address < symbol.address + symbol.size)

variable {ctx : Context} {t : TypeInfo} {known : Knowledge} {v : Vtable} {address : Int}
  {virtuals : List TypeInfo} {inherited : List Vtable} {name : String}

/-- The vtable of a class and those of its virtual bases, as ranges. -/
theorem any_contains_iff (listed : t.virtualBases ctx known = .ok virtuals known)
    (each : ∀ c ∈ virtuals, ∃ w ∈ inherited, c.vtable ctx known = .ok w known)
    (only : ∀ w ∈ inherited, ∃ c ∈ virtuals, c.vtable ctx known = .ok w known) :
    (v.range :: (inherited.filter (·.isValid)).map (·.range)).any (·.contains address) = true ↔
      (v.address ≤ address ∧ address < v.stop) ∨
      ∃ virtuals, t.virtualBases ctx known = .ok virtuals known ∧ ∃ c ∈ virtuals, ∃ w,
        c.vtable ctx known = .ok w known ∧ w.isValid = true ∧ w.address ≤ address ∧
        address < w.stop := by
  rw [List.any_cons, Bool.or_eq_true, AddressRange.contains_iff, List.any_map, List.any_eq_true]
  refine or_congr Iff.rfl ⟨?_, ?_⟩
  · rintro ⟨w, chosen, inside⟩
    obtain ⟨member, valid⟩ := List.mem_filter.mp chosen
    obtain ⟨c, base, has⟩ := only w member
    obtain ⟨starts, ends⟩ := AddressRange.contains_iff.mp inside
    exact ⟨virtuals, listed, c, base, w, has, valid, starts, ends⟩
  · rintro ⟨virtuals', listed', c, base, w, has, valid, starts, ends⟩
    cases listed.symm.trans listed'
    obtain ⟨w', member, has'⟩ := each c base
    cases has.symm.trans has'
    exact ⟨w, List.mem_filter.mpr ⟨member, valid⟩, AddressRange.contains_iff.mpr ⟨starts, ends⟩⟩

/-- The vtables that are used while a class is being built, as ranges. -/
theorem any_contains_symbols_iff {symbols : List Symbol} :
    ((symbols.filter (·.size ≠ 0)).map fun s =>
        (⟨s.address, s.address + s.size⟩ : AddressRange)).any (·.contains address) = true ↔
      ∃ symbol ∈ symbols, symbol.size ≠ 0 ∧ symbol.address ≤ address ∧
        address < symbol.address + symbol.size := by
  rw [List.any_map, List.any_eq_true]
  constructor
  · rintro ⟨symbol, chosen, inside⟩
    obtain ⟨member, sized⟩ := List.mem_filter.mp chosen
    exact ⟨symbol, member, of_decide_eq_true sized, AddressRange.contains_iff.mp inside⟩
  · rintro ⟨symbol, member, sized, inside⟩
    exact ⟨symbol, List.mem_filter.mpr ⟨member, decide_eq_true sized⟩,
      AddressRange.contains_iff.mpr inside⟩

/-- The regions of entries are where they may lead. -/
theorem vttRegions_settles (identified : ctx.Identified t) (v : Vtable) :
    Settles ctx (fun known regions => ∀ address,
      regions.any (·.contains address) = true ↔ t.VttTarget ctx known v address)
      (t.vttRegions ctx v) := by
  unfold vttRegions
  refine (Context.virtualBases_settles identified).bind fun virtuals walk => ?_
  obtain ⟨_, -, edges, walked, same⟩ := walk
  have classes : ∀ c ∈ virtuals, ctx.Identified c := by
    intro c member
    rw [same] at member
    obtain ⟨e, chosen, rfl⟩ := List.mem_map.mp (mem_of_mem_firstOccurrences member)
    exact walked.target e (List.mem_of_mem_filter chosen)
  refine (Settles.mapM fun c member =>
    (Context.vtable_lasting ctx.limits ctx.cancelled (classes c member)).settles).bind
    fun inherited _ => ?_
  have naming : Settles ctx (fun known name => t.typeName ctx known = .ok name known)
      (t.typeName ctx) :=
    (Context.nameAs_repeating identified .mangled).self.settles.mono fun _ _ both => both.2
  refine naming.bind fun name _ => ?_
  -- what the three questions settled, in any later state
  have regions : ∀ known address, t.typeName ctx known = .ok name known →
      ((∀ c ∈ virtuals, ∃ w ∈ inherited, w.Serves ctx.Identified ∧
        c.vtable ctx known = .ok w known) ∧
      ∀ w ∈ inherited, ∃ c ∈ virtuals, w.Serves ctx.Identified ∧
        c.vtable ctx known = .ok w known) →
      t.virtualBases ctx known = .ok virtuals known →
      ((v.range :: (inherited.filter (·.isValid)).map (·.range)).any (·.contains address) = true ∨
        (name ≠ "" ∧ ∃ symbol ∈ ctx.image.symbolsWithPrefix (constructionPrefix ++ name),
          symbol.size ≠ 0 ∧ symbol.address ≤ address ∧ address < symbol.address + symbol.size) ↔
        t.VttTarget ctx known v address) := by
    rintro known address named ⟨each, only⟩ listed
    rw [any_contains_iff listed
      (fun c member => (each c member).imp fun _ both => ⟨both.1, both.2.2⟩)
      (fun w member => (only w member).imp fun _ both => ⟨both.1, both.2.2⟩)]
    constructor
    · rintro ((⟨starts, ends⟩ | ⟨_, listed, c, member, w, has, valid, starts, ends⟩) |
        ⟨nonempty, symbol, listed, sized, starts, ends⟩)
      · exact .own starts ends
      · exact .inherited listed member has valid starts ends
      · exact .construction named nonempty listed sized starts ends
    · rintro (⟨starts, ends⟩ | ⟨listed, member, has, valid, starts, ends⟩ |
        ⟨named', nonempty, listed, sized, starts, ends⟩)
      · exact .inl (.inl ⟨starts, ends⟩)
      · exact .inl (.inr ⟨_, listed, _, member, _, has, valid, starts, ends⟩)
      · cases named.symm.trans named'
        exact .inr ⟨nonempty, _, listed, sized, starts, ends⟩
  refine .ite (fun empty => ?_) fun filled => ?_
  · refine .pure fun known named tables walk address => ?_
    rw [← regions known address named tables walk.1, or_iff_left fun symbols => symbols.1 empty]
  · refine .pure fun known named tables walk address => ?_
    rw [← regions known address named tables walk.1, List.any_append, Bool.or_eq_true,
      any_contains_symbols_iff, and_iff_right filled]

end TypeInfo

/-! ### Runs of entries -/

namespace Context

variable {ctx : Context} {block : Block} {Target : Int → Prop} {first : Bool} {start : Int}
  {most : Nat} {entries : List Int}

/-- The word number `i` from `start` on can be the entry `value`: it lies in the block and leads to
    a target, and no symbol starts there, though one may start at the `first` entry. -/
structure VttEntry (ctx : Context) (block : Block) (Target : Int → Prop) (first : Bool)
    (start : Int) (i : Nat) (value : Int) : Prop where
  /-- The word lies in the block. -/
  inside : block.contains (start + ctx.image.ptr * i) ctx.image.ptr = true
  /-- No symbol starts at it. -/
  clear : (first = true → 0 < i) → ctx.image.hasSymbolAt (start + ctx.image.ptr * i) = false
  /-- It is a pointer to the value. -/
  leads : ctx.image.resolve (start + ctx.image.ptr * i) = .ok (some value)
  /-- Which is a target. -/
  target : Target value

/-- What it takes for the first word to be an entry. -/
theorem vttEntry_zero_iff {value : Int} :
    ctx.VttEntry block Target first start 0 value ↔
      block.contains start ctx.image.ptr = true ∧
      (first = false → ctx.image.hasSymbolAt start = false) ∧
      ctx.image.resolve start = .ok (some value) ∧ Target value := by
  have later_iff : (first = true → 0 < 0) ↔ first = false := by
    rw [← Bool.not_eq_true, imp_congr_right fun _ => iff_false_intro (Nat.lt_irrefl 0)]
  constructor
  · rintro ⟨inside, clear, leads, target⟩
    rw [ctx.image.nthWord_zero] at inside clear leads
    exact ⟨inside, fun later => clear (later_iff.mpr later), leads, target⟩
  · rintro ⟨inside, clear, leads, target⟩
    rw [← ctx.image.nthWord_zero start] at inside clear leads
    exact ⟨inside, fun later => clear (later_iff.mp later), leads, target⟩

/-- Later entries are those of the run from the next word on, where no symbol may start. -/
theorem vttEntry_succ_iff {i : Nat} {value : Int} :
    ctx.VttEntry block Target first start (i + 1) value ↔
      ctx.VttEntry block Target false (start + ctx.image.ptr) i value := by
  constructor
  · rintro ⟨inside, clear, leads, target⟩
    rw [ctx.image.nthWord_succ] at inside clear leads
    exact ⟨inside, fun _ => clear fun _ => Nat.succ_pos i, leads, target⟩
  · rintro ⟨inside, clear, leads, target⟩
    rw [← ctx.image.nthWord_succ] at inside clear leads
    exact ⟨inside, fun _ => clear fun never => absurd never Bool.false_ne_true, leads, target⟩

/-- The entries are those of the words from `start` on, up to the first that cannot be one, and
    there are at most `most` of them. -/
structure VttEntries (ctx : Context) (block : Block) (Target : Int → Prop) (first : Bool)
    (start : Int) (most : Nat) (entries : List Int) : Prop where
  /-- There are not too many. -/
  few : entries.length ≤ most
  /-- Each can be an entry. -/
  each : ∀ (i : Nat) value, entries[i]? = some value →
    ctx.VttEntry block Target first start i value
  /-- Unless there can be no more of them, the next word cannot. -/
  whole : entries.length < most → ∀ value,
    ¬ ctx.VttEntry block Target first start entries.length value

namespace VttEntries

/-- A run depends only on what the targets are. -/
theorem congr {Target' : Int → Prop} (run : ctx.VttEntries block Target first start most entries)
    (same : ∀ value, Target value ↔ Target' value) :
    ctx.VttEntries block Target' first start most entries := by
  rw [← funext fun value => propext (same value)]
  exact run

/-- A run ends at a word that cannot be an entry. -/
theorem nil (ends : ∀ value, ¬ ctx.VttEntry block Target first start 0 value) :
    ctx.VttEntries block Target first start most [] where
  few := Nat.zero_le _
  each _ _ listed := by cases listed
  whole _ := ends

/-- An entry goes before a run from the next word on. -/
theorem cons {value : Int} (entry : ctx.VttEntry block Target first start 0 value)
    (run : ctx.VttEntries block Target false (start + ctx.image.ptr) most entries) :
    ctx.VttEntries block Target first start (most + 1) (value :: entries) where
  few := Nat.succ_le_succ run.few
  each i other listed := by
    cases i with
    | zero =>
      cases listed
      exact entry
    | succ i => exact vttEntry_succ_iff.mpr (run.each i other listed)
  whole fewer other next :=
    run.whole (Nat.lt_of_succ_lt_succ fewer) other (vttEntry_succ_iff.mp next)

/-- The first entry is what the first word leads to, if that is a target. -/
theorem head?_eq_some_iff (run : ctx.VttEntries block Target true start most entries)
    (room : 0 < most) (inside : block.contains start ctx.image.ptr = true) {value : Int} :
    entries.head? = some value ↔
      ctx.image.resolve start = .ok (some value) ∧ Target value := by
  have entry_iff : ctx.VttEntry block Target true start 0 value ↔
      ctx.image.resolve start = .ok (some value) ∧ Target value := by
    rw [vttEntry_zero_iff, and_iff_right inside,
      and_iff_right fun never => absurd never.symm Bool.false_ne_true]
  rw [← entry_iff]
  -- An empty run has ended at the first word, which then is no entry.
  cases entries with
  | nil => exact iff_of_false (fun none => by cases none) (run.whole room value)
  | cons found rest =>
    have here := run.each 0 found rfl
    refine ⟨fun same => Option.some.inj same ▸ here, fun there => ?_⟩
    cases here.leads.symm.trans there.leads
    rfl

end VttEntries

end Context

namespace Recover

variable {ctx : Context}

/-- **Entries are the longest run.** -/
theorem vttEntries_settles (block : Block) (regions : List AddressRange) (count : Nat)
    (first : Bool) (address : Int) :
    Settles ctx (fun _ entries => ctx.VttEntries block
        (fun value => regions.any (·.contains value) = true) first address count entries)
      (vttEntries ctx block regions count first address) := by
  induction count generalizing first address with
  | zero =>
    refine .pure fun _ => ⟨Nat.le_refl 0, fun _ _ listed => ?_, fun fewer => ?_⟩
    · cases listed
    · exact absurd fewer (Nat.lt_irrefl 0)
  | succ count ih =>
    rw [vttEntries]
    -- one case for each way in which the word at `address` can fail to be an entry
    refine .ite (fun out => .pure fun _ => .nil fun value entry => ?_) fun inside => ?_
    · obtain ⟨inside, -⟩ := Context.vttEntry_zero_iff.mp entry
      rw [inside] at out
      cases out
    rw [Bool.not_eq_true', Bool.not_eq_false] at inside
    refine Settles.checkCancelled.bind fun _ _ => ?_
    refine .ite (fun symbol => .pure fun _ _ => .nil fun value entry => ?_) fun clear => ?_
    · obtain ⟨-, clear, -⟩ := Context.vttEntry_zero_iff.mp entry
      rw [Bool.and_eq_true, Bool.not_eq_true'] at symbol
      cases symbol.2.symm.trans (clear symbol.1)
    refine (Settles.lift _).bind fun found resolved => ?_
    obtain ⟨_, resolved⟩ := resolved
    cases found with
    | none =>
      refine .pure fun _ _ _ => .nil fun value entry => ?_
      obtain ⟨-, -, leads, -⟩ := Context.vttEntry_zero_iff.mp entry
      cases resolved.symm.trans leads
    | some found =>
      refine .ite (fun out => .pure fun _ _ _ => .nil fun value entry => ?_) fun within => ?_
      · obtain ⟨-, -, leads, target⟩ := Context.vttEntry_zero_iff.mp entry
        cases resolved.symm.trans leads
        rw [target] at out
        cases out
      refine (ih false _).bind fun rest _ => .pure fun _ run _ _ => run.cons ?_
      rw [Bool.not_eq_true', Bool.not_eq_false] at within
      refine Context.vttEntry_zero_iff.mpr ⟨inside, fun later => ?_, resolved, within⟩
      rw [later] at clear
      exact Bool.eq_false_iff.mpr clear

end Recover

/-! ### Tables of vtables -/

namespace TypeInfo

variable {ctx : Context} {t : TypeInfo} {known after : Knowledge} {v : Vtable} {address : Int}
  {primary : SubTable} {block : Block} {most : Nat} {virtuals : List TypeInfo}

/-- What an answer to the question for a table of vtables says of a class with virtual bases. -/
theorem of_vttAt?_ok {found : Option Vtt} {last : Knowledge} (grounded : ctx.Grounded known)
    (identified : ctx.Identified t) (listed : t.virtualBases ctx known = .ok virtuals after)
    (nonempty : virtuals ≠ []) (first : v.primary? = some primary)
    (inside : ctx.image.blockAt? address = some block)
    (room : ctx.limits.maxVttEntries.capacity block.size.toNat = .ok most)
    (answered : t.vttAt? ctx v address known = .ok found last) :
    ∃ entries, ctx.VttEntries block (t.VttTarget ctx last v) true address most entries ∧
      found = if entries.head? = some primary.addressPoint then
        some ⟨address, t.address, entries⟩ else none := by
  have bases : ¬ virtuals.isEmpty = true := mt List.isEmpty_iff.mp nonempty
  rw [vttAt?, bind_ok listed, if_neg bases] at answered
  simp only [first, inside] at answered
  -- The knowledge that is left by the question for the virtual bases is where the rest starts.
  obtain ⟨still, -⟩ := Context.virtualBases_settles identified grounded listed
  refine Settles.now (P := fun known found => ∃ entries,
    ctx.VttEntries block (t.VttTarget ctx known v) true address most entries ∧
    found = if entries.head? = some primary.addressPoint then
      some ⟨address, t.address, entries⟩ else none) ?_ still answered
  refine (vttRegions_settles identified v).bind fun regions _ => ?_
  refine (Settles.lift _).bind fun count counted => ?_
  obtain ⟨_, counted⟩ := counted
  cases room.symm.trans counted
  refine (vttEntries_settles block regions most true address).bind fun entries _ => ?_
  refine .ite (fun starts => .pure fun known run _ targets => ?_)
    fun other => .pure fun known run _ targets => ?_
  · exact ⟨entries, run.congr targets, (if_pos starts).symm⟩
  · exact ⟨entries, run.congr targets, (if_neg other).symm⟩

variable {G : BaseGraph}

/-- In a well-formed hierarchy, once the virtual bases are known, nothing stops the question where
    entries may lead. -/
theorem vttRegions_answered (wellFormed : G.WellFormed t)
    (tolerates : ctx.Tolerates fun _ => False) (draws : ctx.Draws G known)
    (identified : ctx.Identified t) (listed : t.virtualBases ctx known = .ok virtuals after)
    (reach : ∀ c ∈ virtuals, c.address < ctx.image.width.span) (v : Vtable) :
    ∃ regions last, t.vttRegions ctx v after = .ok regions last ∧ ctx.Draws G last := by
  have sim := wellFormed.locating tolerates
  have virtualBases : Alike (.within (ctx.Draws G) fun _ => False)
      (fun classes => ∀ c ∈ classes, ctx.Identified c ∧ Relation.ReflTransGen G.Edge t c)
      (t.virtualBases ctx) (t.virtualBases ctx) := sim.virtualBases ⟨identified, .refl⟩
  obtain ⟨_, _, listed', classes, still⟩ := virtualBases.answered draws
  cases listed.symm.trans listed'
  obtain ⟨again, -⟩ := (Context.virtualBases_settles identified).now draws.grounded listed
  -- the virtual bases are given again, and nothing stops the questions for their vtables
  have vtables : Alike (.within (ctx.Draws G) fun _ => False) _ (virtuals.mapM (·.vtable ctx))
      (virtuals.mapM (·.vtable ctx)) :=
    .mapM (fun c member => And.intro (classes c member) (reach c member))
      fun c good => wellFormed.vtable tolerates good.1.1 good.1.2 (.inr good.2)
  have typeName : Alike (.within (ctx.Draws G) fun _ => False) Any (t.typeName ctx)
      (t.typeName ctx) := sim.typeName identified
  obtain ⟨inherited, middle, asked, -, between⟩ := vtables.answered still
  obtain ⟨name, last, named, -, drawn⟩ := typeName.answered between
  rw [vttRegions, bind_ok again, bind_ok asked, bind_ok named]
  split
  · exact ⟨_, last, rfl, drawn⟩
  · exact ⟨_, last, rfl, drawn⟩

/-- **The question for a table of vtables is answered** if that for the virtual bases is. -/
theorem vttAt?_answered (tolerates : ctx.Tolerates fun _ => False) (draws : ctx.Draws G known)
    (identified : ctx.Identified t) (listed : t.virtualBases ctx known = .ok virtuals after)
    (reach : ∀ c ∈ virtuals, c.address < ctx.image.width.span) (v : Vtable) (address : Int) :
    ∃ found last, t.vttAt? ctx v address known = .ok found last := by
  have keeps : Keeps (ctx.Draws G) _ (t.virtualBases ctx) :=
    (ctx.upholds_draws G).locating.virtualBases identified
  obtain ⟨-, edges, walked, -⟩ :=
    (Context.virtualBases_settles identified).now draws.grounded listed
  -- Since the virtual bases were listed, the walk over the hierarchy ended.
  have wellFormed := (keeps.of_ok draws listed).2.wellFormed identified walked.listed
  obtain ⟨regions, middle, asked, between⟩ :=
    vttRegions_answered wellFormed tolerates draws identified listed reach v
  rw [vttAt?, bind_ok listed]
  split
  · exact ⟨none, after, rfl⟩
  cases v.primary? with
  | none => exact ⟨none, after, rfl⟩
  | some primary =>
    cases ctx.image.blockAt? address with
    | none => exact ⟨none, after, rfl⟩
    | some block =>
      cases room : ctx.limits.maxVttEntries.capacity block.size.toNat with
      | error fault => exact (tolerates.vttEntries _ fault room).elim
      | ok most =>
        have run : Alike (.within (ctx.Draws G) fun _ => False) Any
            (vttEntries ctx block regions most true address)
            (vttEntries ctx block regions most true address) :=
          (wellFormed.locating tolerates).vttEntries block regions most true address
        obtain ⟨entries, last, found, -, -⟩ := run.answered between
        simp only [bind_ok asked, bind_ok (lift_ok middle room), bind_ok found]
        split
        · exact ⟨_, last, rfl⟩
        · exact ⟨_, last, rfl⟩

end TypeInfo

/-! ### Address points -/

/-- **A vtable covers its own address point** exactly if a slot or another table stands there. -/
theorem Vtable.Tiled.covers_iff {ctx : Context} {known : Knowledge} {t : TypeInfo} {address : Int}
    {v : Vtable} {primary : SubTable} (tiled : v.Tiled ctx known t address)
    (first : v.primary? = some primary) :
    (v.address ≤ primary.addressPoint ∧ primary.addressPoint < v.stop) ↔
      primary.slots ≠ [] ∨ 2 ≤ v.tables.length := by
  obtain ⟨rest, split⟩ := List.head?_eq_some_iff.mp first
  have tiles := tiled.tiles
  have regular := tiled.regular
  rw [split] at tiles regular
  obtain ⟨start, follow⟩ := tiles
  obtain ⟨here, others⟩ := List.forall_mem_cons.mp regular
  obtain ⟨fits, more⟩ := follow.le others
  have above : v.address ≤ primary.addressPoint := by
    rw [tiled.starts, ← start]
    exact Int.le_of_lt here.start_lt
  rw [and_iff_right above, split, List.length_cons]
  constructor
  · intro before
    by_contra neither
    rw [not_or, not_not] at neither
    obtain ⟨empty, single⟩ := neither
    -- the table is the last one and ends at its address point
    obtain rfl : rest = [] := List.length_eq_zero_iff.mp (by omega)
    have stops : primary.addressPoint + ctx.image.ptr * primary.slots.length = v.stop := follow
    rw [empty, List.length_nil, ctx.image.nthWord_zero] at stops
    omega
  · rintro (slots | several)
    · have word := Int.mul_pos ctx.image.ptr_pos
        (Int.natCast_pos.mpr (List.length_pos_iff.mpr slots))
      omega
    · have nonneg := Int.mul_nonneg (Int.le_of_lt ctx.image.ptr_pos)
        (Int.natCast_nonneg primary.slots.length)
      have last := more (List.ne_nil_of_length_pos (by omega))
      omega

/-! ### Sessions -/

namespace Session

/-- **Tables of vtables are exact.**  Ask for the table of vtables of a class with virtual bases at
    an address where a word fits in the block, for a vtable of the class that was read before.  If
    pointers can hold the addresses of the virtual bases, there is an answer.  There is a table if
    and only if the word leads to the address point of the vtable and entries may lead there; they
    may unless the vtable ends at its address point.  The entries are the longest run of words that
    may be entries, up to the limit. -/
theorem vtt_exact (image : Image) (demangle : Demangler) (limits : Limits) (detector : Detector)
    (listing : Listing) (before between : List Query) (t : TypeInfo) (place address : Int)
    (v : Vtable) (virtuals : List TypeInfo) (known : Knowledge) (block : Block) (most : Nat) :
    let s₀ := (start image demangle limits detector listing).after before
    let s := s₀.after (.ofClass t.address (.vtableAt place) :: between)
    let ctx := s.context
    ctx.Identified t →
    (s₀.ask (.ofClass t.address (.vtableAt place))).1 = .ok (.vtable (some v)) →
    t.virtualBases ctx s.known = .ok virtuals known → virtuals ≠ [] →
    ctx.image.blockAt? address = some block → block.contains address ctx.image.ptr = true →
    ctx.limits.maxVttEntries.capacity block.size.toNat = .ok most → 1 ≤ most →
    ∃ primary, v.primary? = some primary ∧
      (ctx.cancelled = false → ctx.limits.Fit →
        (∀ c ∈ virtuals, c.address < ctx.image.width.span) →
        ∃ found after, t.vttAt? ctx v address s.known = .ok found after) ∧
      (v.address ≤ primary.addressPoint ∧ primary.addressPoint < v.stop ↔
        primary.slots ≠ [] ∨ 2 ≤ v.tables.length) ∧
      ∀ found after, t.vttAt? ctx v address s.known = .ok found after →
        (found.isSome = true ↔
          ctx.image.resolve address = .ok (some primary.addressPoint) ∧
          t.VttTarget ctx after v primary.addressPoint) ∧
        (primary.slots ≠ [] ∨ 2 ≤ v.tables.length → (found.isSome = true ↔
          ctx.image.resolve address = .ok (some primary.addressPoint))) ∧
        ∀ vtt, found = some vtt → vtt.address = address ∧ vtt.typeInfo = t.address ∧
          ctx.VttEntries block (t.VttTarget ctx after v) true address most vtt.entries := by
  intro s₀ s ctx identified answered listed nonempty inside holds room positive
  have grounded₀ : s₀.Grounded :=
    (after_leads (grounded_start image demangle limits detector listing) before).1
  obtain ⟨grounded, leads⟩ :=
    after_leads grounded₀ (.ofClass t.address (.vtableAt place) :: between)
  -- the vtable was read as a tiling, with the limits of that time
  have found₀ : s₀.context.Identified t := (leads.identify t.address).symm.trans identified
  have asked := of_ask_ok answered
  rw [recover_ofClass found₀] at asked
  obtain ⟨_, k, read, made⟩ := of_bind_ok asked
  cases made
  obtain ⟨g, parsed⟩ :=
    (TypeInfo.vtableAt?_settles found₀ place).now (grounded₀.meet found₀) read v rfl
  have tiled := parsed.tiled
  obtain ⟨primary, rest, split⟩ := List.exists_cons_of_ne_nil tiled.nonempty
  have first : v.primary? = some primary := by
    rw [Vtable.primary?, split, List.head?_cons]
  have covers := tiled.covers_iff first
  refine ⟨primary, first, fun running fit reach => ?_, covers, fun found after given => ?_⟩
  · have readable : ctx.image.order.Known := by
      have word := (tiled.regular primary (split ▸ List.mem_cons_self ..)).words
        primary.vcallOffsets.length primary.offsetToTop List.getElem?_concat_length
      show s.context.image.order.Known
      rw [leads.context]
      exact Image.known_of_readInt word
    exact TypeInfo.vttAt?_answered (ctx.tolerates readable running fit _) grounded.draws
      identified listed reach v address
  · obtain ⟨entries, run, rfl⟩ :=
      TypeInfo.of_vttAt?_ok grounded identified listed nonempty first inside room given
    have starts : entries.head? = some primary.addressPoint ↔ _ :=
      run.head?_eq_some_iff positive holds
    rw [Option.isSome_ite]
    refine ⟨starts, fun stands => ?_, fun vtt made => ?_⟩
    · obtain ⟨below, above⟩ := covers.mpr stands
      exact starts.trans (and_iff_left (.own below above))
    · obtain ⟨-, made⟩ := Option.ite_none_right_eq_some.mp made
      cases made
      exact ⟨rfl, rfl, run⟩

end Session

/-- The data of a program with two classes over a virtual base: the type_info of the base and of the
    two classes, their vtables after 56 and 72 bytes, and their tables of vtables after 88 and 92.
    The second class has no virtual functions, so its vtable ends at its address point. -/
def Block.sampleVtts : Block where
  name := ".data"
  start := 0x400000
  data := ⟨(([0x500008, 0, 0x500108, 0, 0, 1, 0x400000, 0xfffff403,
      0x500108, 0, 0, 1, 0x400000, 0xfffff403, 8, 0, 0x400008, 0x600000, 8, 0, 0x400020, 0,
      0x400044, 0x400054, 0] : List Nat).flatMap (littleBytes 4)).toArray⟩
  size := 100

/-- The program with the two classes. -/
def Image.sampleVtts : Image :=
  { Image.sampleRepeated with
    blocks := [.sampleVtts, .sampleCode]
    ordered := by decide }

/-- The vtable of one of the classes: an offset word, a header and the slots. -/
def Vtable.sampleVtts (owner start : Int) (slots : List Slot) : Vtable where
  address := start
  typeInfo := owner
  tables :=
    [{ start, header := start + 4, addressPoint := start + 12, vcallOffsets := [8],
       entries := .offsetToTop 0 :: .typeInfo owner :: slots.map .slot }]
  stop := start + 12 + 4 * slots.length

namespace Session

/-- A session about that program, after the vtable of a class was read. -/
def sampleVtts (t : TypeInfo) (place : Int) : Session :=
  (start .sampleVtts (fun _ => none) {} (.ofTable []) []).after
    [.ofClass t.address (.vtableAt place)]

/-- Reading a vtable changes nothing but what is known. -/
theorem after_vtableAt {s : Session} {t : TypeInfo} {place : Int} {v : Vtable}
    (identified : s.context.Identified t)
    (read : (t.vtableAt? s.context place).run' (s.known.meet t) = some (some v)) :
    (s.ask (.ofClass t.address (.vtableAt place))).1 = .ok (.vtable (some v)) ∧
      (s.after [.ofClass t.address (.vtableAt place)]).context = s.context := by
  obtain ⟨known, read⟩ := run'_eq_some_iff.mp read
  have asked : s.recover (.ofClass t.address (.vtableAt place)) s.known =
      .ok (.vtable (some v)) known :=
    (recover_ofClass identified (.vtableAt place) s.known).trans (bind_ok read)
  rw [after_cons, after_nil, ask_ok asked]
  exact ⟨rfl, rfl⟩

/-- The table of vtables of the first class is found.  The word that leads to the address point of
    the second class begins no table, since no vtable covers the address point. -/
theorem vtt_exact_sampleVtts :
    (let s := sampleVtts ⟨0x400008, .general⟩ 0x400038;
      ∃ vtt after, TypeInfo.vttAt? s.context ⟨0x400008, .general⟩
        (.sampleVtts 0x400008 0x400038 [{ address := some 0x600000 }]) 0x400058 s.known =
          .ok (some vtt) after ∧ vtt.address = 0x400058) ∧
    (let s := sampleVtts ⟨0x400020, .general⟩ 0x400048;
      s.context.image.resolve 0x40005c = .ok (some 0x400054) ∧
      ∃ after, TypeInfo.vttAt? s.context ⟨0x400020, .general⟩
        (.sampleVtts 0x400020 0x400048 []) 0x40005c s.known = .ok none after ∧
      ¬ TypeInfo.VttTarget s.context after ⟨0x400020, .general⟩
        (.sampleVtts 0x400020 0x400048 []) 0x400054) := by
  have identified : let ctx := (start .sampleVtts (fun _ => none) {} (.ofTable []) []).context
      ctx.Identified ⟨0x400008, .general⟩ ∧ ctx.Identified ⟨0x400020, .general⟩ := by
    unfold Context.Identified
    decide +kernel
  constructor
  · intro s
    obtain ⟨asked, same⟩ := after_vtableAt identified.1 (show
      (TypeInfo.vtableAt? _ _ 0x400038).run' _ =
        some (some (.sampleVtts 0x400008 0x400038 [{ address := some 0x600000 }])) by
          decide +kernel)
    have context : s.context.Identified ⟨0x400008, .general⟩ ∧
        s.context.image.blockAt? 0x400058 = some .sampleVtts ∧ s.context.limits.Fit := by
      rw [show s.context = _ from same]
      exact ⟨identified.1, rfl, Limits.fit_default⟩
    have leads : s.context.image.resolve 0x400058 = .ok (some 0x400044) := by
      rw [show s.context = _ from same]
      decide +kernel
    obtain ⟨known, listed⟩ := run'_eq_some_iff.mp (show
      (TypeInfo.virtualBases s.context ⟨0x400008, .general⟩).run' s.known =
        some [⟨0x400000, .simple⟩] by decide +kernel)
    obtain ⟨primary, first, answered, -, exact⟩ :=
      vtt_exact .sampleVtts (fun _ => none) {} (.ofTable []) [] [] [] ⟨0x400008, .general⟩
        0x400038 0x400058 _ _ known .sampleVtts 512 context.1 asked listed
        (List.cons_ne_nil _ _) context.2.1 (by decide +kernel) (by decide +kernel) (by decide)
    obtain ⟨found, after, given⟩ := answered (by decide +kernel) context.2.2
      (List.forall_mem_singleton.mpr (by decide +kernel))
    cases first
    obtain ⟨-, starts, table⟩ := exact found after given
    -- The address point of the first class is in its vtable, so that the word leads to a target.
    obtain ⟨vtt, rfl⟩ := Option.isSome_iff_exists.mp ((starts (.inl (by decide))).mpr leads)
    exact ⟨vtt, after, given, (table vtt rfl).1⟩
  · intro s
    obtain ⟨asked, same⟩ := after_vtableAt identified.2 (show
      (TypeInfo.vtableAt? _ _ 0x400048).run' _ =
        some (some (.sampleVtts 0x400020 0x400048 [])) by decide +kernel)
    have context : s.context.Identified ⟨0x400020, .general⟩ ∧
        s.context.image.blockAt? 0x40005c = some .sampleVtts := by
      rw [show s.context = _ from same]
      exact ⟨identified.2, rfl⟩
    have leads : s.context.image.resolve 0x40005c = .ok (some 0x400054) := by
      rw [show s.context = _ from same]
      decide +kernel
    have answers : (TypeInfo.virtualBases s.context ⟨0x400020, .general⟩).run' s.known =
          some [⟨0x400000, .simple⟩] ∧
        (TypeInfo.vttAt? s.context ⟨0x400020, .general⟩ (.sampleVtts 0x400020 0x400048 [])
          0x40005c).run' s.known = some none := by decide +kernel
    obtain ⟨known, listed⟩ := run'_eq_some_iff.mp answers.1
    obtain ⟨after, given⟩ := run'_eq_some_iff.mp answers.2
    obtain ⟨primary, first, -, -, exact⟩ :=
      vtt_exact .sampleVtts (fun _ => none) {} (.ofTable []) [] [] [] ⟨0x400020, .general⟩
        0x400048 0x40005c _ _ known .sampleVtts 512 context.1 asked listed
        (List.cons_ne_nil _ _) context.2 (by decide +kernel) (by decide +kernel) (by decide)
    cases first
    obtain ⟨starts, -, -⟩ := exact none after given
    exact ⟨leads, after, given, fun target => Bool.false_ne_true (starts.mpr ⟨leads, target⟩)⟩

end Session

end ItaniumRtti
