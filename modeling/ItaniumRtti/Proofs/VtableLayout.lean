import ItaniumRtti.Proofs.Discovery
import ItaniumRtti.Proofs.GroupLayout
import ItaniumRtti.Proofs.WellFormed

namespace ItaniumRtti

/-!
# Vtables are read as they were laid out

* `Image.Placed` — words that stand in a block as they were written;
* `Context.Distinct` — the rules by which the words of a group are told apart;
* `Context.Allows` — how many tables a class can have;
* `TypeInfo.vtable_of_layout` — the vtable of a class consists of the tables that were laid out.
-/

open Recover

/-! ### What layouts have to follow -/

/-- The words stand from `address` on in the contents of the block, untouched by the linker: nothing
    is relocated, no symbol stands inside, and the block or a symbol ends them. -/
structure Image.Placed (img : Image) (b : Block) (address : Int) (words : List img.width.Word) :
    Prop where
  /-- The block belongs to the image. -/
  block : b ∈ img.blocks
  /-- The words stand in it. -/
  stores : img.Stores b address words
  /-- None of their bytes is relocated. -/
  unrelocated : ∀ a, address ≤ a → a < address + img.ptr * words.length → img.relocationAt? a = none
  /-- No symbol stands after the first byte. -/
  unnamed : ∀ a, address < a → a < address + img.ptr * words.length → img.hasSymbolAt a = false
  /-- They end where the block ends or at a symbol. -/
  closed : address + img.ptr * words.length = b.stop ∨
    img.hasSymbolAt (address + img.ptr * words.length) = true

/-- The layouts of a group of tables of the class `owner`, with type_info at `word`, follow the
    rules by which words are told apart. -/
structure Context.Distinct (ctx : Context) (owner : TypeInfo) (word : ctx.image.width.Word)
    (layouts : List (TableLayout ctx.image.width)) : Prop where
  /-- The headers hold the address of the class. -/
  owned : owner.address = word.toNat
  /-- Offsets are within the limit. -/
  offsets : ∀ l ∈ layouts, ∀ w ∈ l.offsets, ctx.Small w
  /-- Each table has few enough offset words. -/
  vcalls : ∃ most, ctx.limits.maxVcallOffsets = .whole most ∧
    ∀ l ∈ layouts, (l.vcallOffsets.length : Int) ≤ most
  /-- Only the first table may have offset zero. -/
  secondaries : ∀ l ∈ layouts.tail, l.offsetToTop.toInt ≠ 0
  /-- Slots are above the limit and lead to code, a function or the pure marker. -/
  slots : ∀ l ∈ layouts, ∀ w ∈ l.slots, ctx.IsSlot w
  /-- A word within the limit is no target of a slot and no address of a class. -/
  apart : ∀ w ∈ TableLayout.groupWords word layouts, ctx.Small w →
    ¬ ctx.IsTarget w ∧ ¬ ctx.IsClass owner w

/-- Tables after the first are looked for if the hierarchy of the class allows them, and no more of
    them than it has classes. -/
def Context.Allows (ctx : Context) (owner : TypeInfo) (count : Nat) : Prop :=
  count = 1 ∨ Fresh (owner.hasSecondaries ctx) true ∧
    ∃ ancestors, Fresh (owner.ancestors ctx) ancestors ∧ count ≤ 1 + ancestors.length

namespace Context

variable {ctx : Context} {owner : TypeInfo} {word : ctx.image.width.Word}
  {layouts : List (TableLayout ctx.image.width)}

theorem mem_groupWords {l : TableLayout ctx.image.width} (member : l ∈ layouts)
    {w : ctx.image.width.Word} (among : w ∈ l.words word) :
    w ∈ TableLayout.groupWords word layouts :=
  List.mem_flatMap.mpr ⟨l, member, among⟩

/-- Each table of a group with distinct words is legible. -/
theorem Distinct.legible (distinct : ctx.Distinct owner word layouts)
    (readable : ctx.image.order.Known) {l : TableLayout ctx.image.width} (member : l ∈ layouts) :
    ctx.Legible owner word l where
  owned := distinct.owned
  real zero := by
    -- The owner's word would be within the limit, like any offset, and the address of a class.
    have top : l.offsetToTop ∈ l.offsets := List.mem_append_right _ (List.mem_singleton.mpr rfl)
    have small : ctx.Small word := (distinct.offsets l member _ top).zero zero
    have among : word ∈ l.words word :=
      List.mem_append_right _ (List.mem_cons_of_mem _ (List.mem_cons_self ..))
    exact (distinct.apart word (mem_groupWords member among) small).2 (.inl distinct.owned)
  offsets w offset := by
    have small := distinct.offsets l member w offset
    have among : w ∈ l.words word := by
      rcases List.mem_append.mp offset with vcall | top
      · exact List.mem_append_left _ vcall
      · exact List.mem_append_right _ (List.mem_singleton.mp top ▸ List.mem_cons_self ..)
    obtain ⟨target, type⟩ := distinct.apart w (mem_groupWords member among) small
    obtain ⟨found, identified⟩ := ctx.roots.identify_ok readable w.toNat
    refine ⟨small, target, fun same => type (.inl same), ?_⟩
    cases found with
    | none => exact identified
    | some t => exact absurd (.inr ⟨t, identified⟩) type
  vcalls := by
    obtain ⟨most, limit, fewer⟩ := distinct.vcalls
    exact ⟨most, limit, fewer l member⟩
  slots := distinct.slots l member

/-- The tables that layouts describe serve no base yet. -/
theorem withoutBase_tablesOf (start : Int) :
    (ctx.tablesOf owner start layouts).map (·.withoutBase) = ctx.tablesOf owner start layouts := by
  induction layouts generalizing start with
  | nil => rfl
  | cons l rest ih =>
    rw [tablesOf, List.map_cons, ih]
    rfl

end Context

namespace Image

variable {img : Image} {b : Block} {address : Int} {words : List img.width.Word}

/-- Words are only written in a known byte order, and only in a block with contents. -/
theorem Placed.readable (tidy : img.Tidy) (placed : img.Placed b address words)
    (nonempty : words ≠ []) :
    img.order.Known ∧ (img.blockAt? address).filter (·.initialized) = some b := by
  obtain ⟨w, rest, rfl⟩ := List.exists_cons_of_ne_nil nonempty
  obtain ⟨bytes, written, -⟩ := placed.stores.bytes
  obtain ⟨first, more, here, -, -⟩ := wordBytes?_cons written
  obtain ⟨found, initialized⟩ := placed.stores.block tidy placed.block
  refine ⟨ByteOrder.known_of_bytes? here, ?_⟩
  rw [found, Option.filter_some, initialized, if_pos rfl]

/-- Words that were placed are read back. -/
theorem Placed.holdsRun (tidy : img.Tidy) (placed : img.Placed b address words) :
    img.HoldsRun b true address words := by
  refine placed.stores.holdsRun tidy placed.block placed.unrelocated fun a lower upper => ?_
  rcases lower with after | ⟨never, _⟩
  · exact placed.unnamed a after upper
  · exact Bool.noConfusion never

end Image

namespace TypeInfo

/-- The vtable of a class in terms of what is asked for it. -/
theorem vtableAt?_of_answers {ctx : Context} {owner : TypeInfo} {address : Int} {b : Block}
    {known k k' after : Knowledge} {secondaries : Bool} {count : Nat}
    {tables attached : List SubTable} {last : SubTable}
    (found : (ctx.image.blockAt? address).filter (·.initialized) = some b)
    (answered : owner.hasSecondaries ctx known = .ok secondaries k)
    (counted : secondaries = false ∧ count = 1 ∧ k' = k ∨ secondaries = true ∧
      ∃ ancestors, owner.ancestors ctx k = .ok ancestors k' ∧ count = 1 + ancestors.length)
    (read : (Group.mk owner b secondaries).tablesFrom ctx count true address = pure tables)
    (isLast : tables.getLast? = some last)
    (attaches : owner.withBases ctx tables k' = .ok attached after) :
    owner.vtableAt? ctx address known = .ok
      (some ⟨address, owner.address, attached, last.stop ctx.image.ptr⟩) after := by
  rw [vtableAt?, found]
  dsimp only
  rw [bind_ok answered]
  -- Without secondary tables, the ancestors are not asked for.
  rcases counted with ⟨rfl, rfl, rfl⟩ | ⟨rfl, ancestors, listed, rfl⟩
  · rw [if_neg Bool.false_ne_true, pure_bind, read, pure_bind, isLast]
    exact bind_ok attaches
  · rw [if_pos rfl, bind_ok listed, pure_bind, read, pure_bind, isLast]
    exact bind_ok attaches

/-- **Vtables are read as they were laid out.**  Where the tables of a class with a well-formed
    hierarchy stand as a compiler laid them out, and their words can be told apart, the vtable of
    the class consists of exactly these tables, with the bases that they serve, and ends where
    they end. -/
theorem vtable_of_layout {ctx : Context} (tidy : ctx.image.Tidy) (running : ctx.cancelled = false)
    {owner : TypeInfo} (identified : ctx.Identified owner) (wellFormed : ctx.WellFormed owner)
    {b : Block} {address : Int} {word : ctx.image.width.Word}
    {layouts : List (TableLayout ctx.image.width)} (nonempty : layouts ≠ [])
    (placed : ctx.image.Placed b address (TableLayout.groupWords word layouts))
    (distinct : ctx.Distinct owner word layouts) (allowed : ctx.Allows owner layouts.length)
    {known : Knowledge} (sound : ctx.SoundBases known) :
    ∃ tables after, Fresh (owner.withBases ctx (ctx.tablesOf owner address layouts)) tables ∧
      tables.map (·.withoutBase) = ctx.tablesOf owner address layouts ∧
      owner.vtableAt? ctx address known = .ok (some ⟨address, owner.address, tables,
        address + ctx.image.ptr * (TableLayout.groupWords word layouts).length⟩) after := by
  have words : TableLayout.groupWords word layouts ≠ [] := by
    obtain ⟨l, rest, rfl⟩ := List.exists_cons_of_ne_nil nonempty
    exact List.append_ne_nil_of_left_ne_nil (l.words_ne_nil word) _
  obtain ⟨readable, found⟩ := placed.readable tidy words
  obtain ⟨most, limit, -⟩ := distinct.vcalls
  obtain ⟨last, isLast, stop⟩ : ∃ last, (ctx.tablesOf owner address layouts).getLast? = _ ∧ _ :=
    Context.getLast?_tablesOf word nonempty
  have read : ∀ secondaries count, (1 < layouts.length → secondaries = true) →
      layouts.length ≤ count →
      (Group.mk owner b secondaries).tablesFrom ctx count true address =
        pure (ctx.tablesOf owner address layouts) := by
    intro secondaries count several enough
    exact Group.tablesFrom_layouts running ⟨most, limit⟩ (placed.holdsRun tidy)
      (fun l member => distinct.legible readable member) (fun never => Bool.noConfusion never)
      distinct.secondaries several placed.closed (fun _ => nonempty) enough
  have walking := wellFormed.walking
  have good : ctx.Identified owner ∧ ctx.Reaches owner owner := ⟨identified, .self⟩
  obtain ⟨secondaries, k, first, answered, -, sound⟩ :=
    Context.answer_of_alike (walking.hasSecondaries good) sound
  rw [← stop]
  cases secondaries with
  | false =>
    -- Only one table is looked for, and there is only one.
    have one : layouts.length = 1 := by
      rcases allowed with one | ⟨second, -⟩
      · exact one
      · exact absurd (first.unique second) Bool.false_ne_true
    obtain ⟨attached, after, fresh, attaches, same, -⟩ :=
      Context.answer_of_alike (walking.withBases good (ctx.tablesOf owner address layouts)) sound
    refine ⟨attached, after, fresh, same.same.trans (Context.withoutBase_tablesOf address), ?_⟩
    exact vtableAt?_of_answers found answered (.inl ⟨rfl, rfl, rfl⟩)
      (read false 1 (fun two => by omega) (by omega)) isLast attaches
  | true =>
    -- As many tables are looked for as the hierarchy has classes.
    obtain ⟨ancestors, k', listed, known, -, sound⟩ :=
      Context.answer_of_alike (walking.ancestors good) sound
    have enough : layouts.length ≤ 1 + ancestors.length := by
      rcases allowed with one | ⟨-, others, again, enough⟩
      · omega
      · rw [listed.unique again]
        exact enough
    obtain ⟨attached, after, fresh, attaches, same, -⟩ :=
      Context.answer_of_alike (walking.withBases good (ctx.tablesOf owner address layouts)) sound
    refine ⟨attached, after, fresh, same.same.trans (Context.withoutBase_tablesOf address), ?_⟩
    exact vtableAt?_of_answers found answered (.inr ⟨rfl, ancestors, known, rfl⟩)
      (read true _ (fun _ => rfl) enough) isLast attaches

end TypeInfo

/-! ### A program with a secondary table -/

/-- The data of a program with a class that has two bases: the type_info of both bases at the
    start, that of the class after 16 bytes, and its vtable after 48. -/
def Block.samplePair : Block where
  name := ".data"
  start := 0x400000
  data := ⟨(([0x500008, 0, 0x500008, 0, 0x500108, 0, 0, 2, 0x400000, 2, 0x400008, 0x402,
      0, 0x400010, 0x600000, 0x600008, 0, 0xfffffff4, 0xfffffffc, 0x400010, 0x60000c] :
      List Nat).flatMap (littleBytes 4)).toArray⟩
  size := 84

/-- A program with a class that has two bases. -/
def Image.samplePair : Image where
  width := .narrow
  order := .little
  arch := "i386"
  abi := none
  blocks := [.samplePair, .sampleCode]
  symbols := [{ name := "_ZTV1C", address := 0x400030 },
    { name := "_ZN1CD0Ev", address := 0x600008, isFunction := true }]
  relocations := ∅
  ordered := by decide

/-- Questions about that program. -/
def Context.samplePair : Context where
  image := .samplePair
  roots := ⟨[(0x500008, .simple), (0x500108, .general)], some 0x60000c, none⟩
  demangle := fun symbol => if symbol = "_ZN1CD0Ev" then some "C::~C()" else none
  limits := {}
  cancelled := false

/-- The tables of the class: a function and a destructor, then a table with two offset words, the
    first of them zero, and a pure function. -/
def TableLayout.samplePair : List (TableLayout Context.samplePair.image.width) :=
  [⟨[], 0, [0x600000, 0x600008], by decide⟩, ⟨[0, -12], -4, [0x60000c], by decide⟩]

/-- The words of the two tables are the last ones of the data. -/
theorem Image.placed_samplePair :
    Image.samplePair.Placed .samplePair 0x400030
      (TableLayout.groupWords 0x400010 TableLayout.samplePair) where
  block := List.mem_cons_self ..
  stores := ⟨by decide, by decide, _, rfl, by decide⟩
  unrelocated _ _ _ := rfl
  unnamed a lower upper := by
    have stop : a < 0x400054 := upper
    simp only [hasSymbolAt, Image.samplePair, List.any_cons, List.any_nil, Bool.true_and,
      Bool.or_false, Bool.or_eq_false_iff, beq_eq_false_iff_ne]
    omega
  closed := .inl (by decide)

/-- The words of the two tables can be told apart. -/
theorem Context.distinct_samplePair :
    Context.samplePair.Distinct ⟨0x400010, .general⟩ 0x400010 TableLayout.samplePair where
  owned := rfl
  -- Checked along the lists: there are too many words to check them all.
  offsets := by
    have checked : TableLayout.samplePair.all (fun l => l.offsets.all fun w =>
      decide (Context.samplePair.Small w)) = true := by decide +kernel
    simpa only [List.all_eq_true, decide_eq_true_eq] using checked
  vcalls := ⟨64, rfl, by decide +kernel⟩
  secondaries := by decide +kernel
  slots := by
    have checked : TableLayout.samplePair.all (fun l => l.slots.all fun w =>
      decide (Context.samplePair.IsSlot w)) = true := by decide +kernel
    simpa only [List.all_eq_true, decide_eq_true_eq] using checked
  apart := by
    have checked : (TableLayout.groupWords 0x400010 TableLayout.samplePair).all (fun w =>
      decide (Context.samplePair.Small w → ¬ Context.samplePair.IsTarget w ∧
        ¬ Context.samplePair.IsClass ⟨0x400010, .general⟩ w)) = true := by decide +kernel
    simpa only [List.all_eq_true, decide_eq_true_eq] using checked

namespace TypeInfo

/-- The vtable of the class with two bases is read as it was laid out, although its second table
    starts with a zero word after a destructor. -/
theorem vtable_of_layout_samplePair : Image.samplePair.Tidy ∧ ∃ tables after,
    tables.map (·.withoutBase) =
      [{ start := 0x400030, header := 0x400030, addressPoint := 0x400038,
         entries := [.offsetToTop 0, .typeInfo 0x400010, .slot { address := some 0x600000 },
          .slot { address := some 0x600008, function := some ⟨0x600008, "_ZN1CD0Ev", 0⟩ }] },
       { start := 0x400040, header := 0x400048, addressPoint := 0x400050, vcallOffsets := [0, -12],
         entries := [.offsetToTop (-4), .typeInfo 0x400010,
          .slot { address := some 0x60000c, isPure := true }] }] ∧
      vtableAt? .samplePair ⟨0x400010, .general⟩ 0x400030 .initial =
        .ok (some ⟨0x400030, 0x400010, tables, 0x400054⟩) after := by
  have tidy : Image.samplePair.Tidy := by decide
  have identified : Context.samplePair.Identified ⟨0x400010, .general⟩ := by
    rw [Context.Identified]
    rfl
  have closed : Context.samplePair.closed
      [⟨0x400010, .general⟩, ⟨0x400000, .simple⟩, ⟨0x400008, .simple⟩] = true := by decide +kernel
  -- The class describes its bases in the general way, and there are two of them.
  have allowed : Context.samplePair.Allows ⟨0x400010, .general⟩ 2 := by
    refine .inr ⟨run'_eq_some_iff.mp ?_, [⟨0x400000, .simple⟩, ⟨0x400008, .simple⟩],
      run'_eq_some_iff.mp ?_, by decide⟩
    · decide +kernel
    · decide +kernel
  obtain ⟨tables, after, -, same, read⟩ := vtable_of_layout tidy rfl identified
    (Context.wellFormed_of_closed closed (List.mem_cons_self ..)) (List.cons_ne_nil _ _)
    Image.placed_samplePair Context.distinct_samplePair allowed Context.soundBases_initial
  exact ⟨tidy, tables, after, same.trans (by decide +kernel), read⟩

end TypeInfo

end ItaniumRtti
