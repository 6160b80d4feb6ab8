import ItaniumRtti.Proofs.Session.Keeping
import ItaniumRtti.Proofs.Sound

namespace ItaniumRtti

/-!
# What is kept in cells

An answer that is kept is not looked for again.  Mangled names are read from marks, and virtual
bases are collected from direct bases; as long as those stay, so does what was found from them.

* `Cells.Kept`, `NameCells.Kept` — no cell of a table is changed or emptied;
* `Context.ReadsName` — what the marks tell of a name;
* `Context.ListsEdges` — what the direct bases that are kept tell of a walk;
* `Context.typeNameAt_again`, `Context.edges_again` — what was answered once is answered in the same
  way from all that is learned later.
-/

open Recover

/-! ### Cells -/

namespace Cells

variable {β : Type} {cells later last : Std.TreeMap Int β}

/-- What is kept at an address is still kept there later. -/
def Kept (cells later : Std.TreeMap Int β) : Prop :=
  ∀ ⦃address : Int⦄ ⦃b : β⦄, cells[address]? = some b → later[address]? = some b

theorem Kept.refl (cells : Std.TreeMap Int β) : Kept cells cells :=
  fun _ _ kept => kept

theorem Kept.trans (first : Kept cells later) (second : Kept later last) : Kept cells last :=
  fun _ _ kept => second (first kept)

/-- An empty cell was empty before. -/
theorem Kept.none (kept : Kept cells later) {address : Int} (empty : later[address]? = none) :
    cells[address]? = none := by
  rw [Option.eq_none_iff_forall_ne_some]
  intro b here
  cases empty.symm.trans (kept here)

/-- A value may be put where none was kept but this one. -/
theorem Kept.insert (kept : Kept cells later) {address : Int} {b : β}
    (only : ∀ c, cells[address]? = some c → c = b) : Kept cells (later.insert address b) := by
  intro place c here
  rw [Std.TreeMap.getElem?_insert]
  split
  · next same =>
    have address : address = place := Std.compare_eq_iff_eq.mp same
    subst address
    rw [only c here]
  · exact kept here

/-- A value may be put into an empty cell. -/
theorem Kept.insertNew (kept : Kept cells later) {address : Int} (b : β)
    (empty : cells[address]? = Option.none) : Kept cells (later.insert address b) :=
  kept.insert fun c here => by cases empty.symm.trans here

/-- What holds of all values kept, and of one more that is put in, holds of all then. -/
theorem forall_insert {Right : Int → β → Prop}
    (all : ∀ ⦃address : Int⦄ ⦃b : β⦄, cells[address]? = some b → Right address b)
    {address : Int} {b : β}
    (right : Right address b) :
    ∀ ⦃place : Int⦄ ⦃c : β⦄, (cells.insert address b)[place]? = some c → Right place c := by
  intro place c here
  rw [Std.TreeMap.getElem?_insert] at here
  split at here
  · next same =>
    have address : address = place := Std.compare_eq_iff_eq.mp same
    subst address
    exact Option.some.inj here ▸ right
  · exact all here

end Cells

namespace NameCells

variable {cells later last : NameCells}

/-- What is kept of a class's name is still kept later. -/
def Kept (cells later : NameCells) : Prop :=
  ∀ ⦃address : Int⦄ ⦃form : NameForm⦄ ⦃name : String⦄, cells.find address form = some name →
    later.find address form = some name

theorem Kept.refl (cells : NameCells) : Kept cells cells :=
  fun _ _ _ kept => kept

theorem Kept.trans (first : Kept cells later) (second : Kept later last) : Kept cells last :=
  fun _ _ _ kept => second (first kept)

/-- A name may be put into an empty cell. -/
theorem Kept.insertNew (kept : Kept cells later) {address : Int} {form : NameForm} (name : String)
    (empty : cells.find address form = none) : Kept cells (later.insert address name form) := by
  intro place other called here
  rw [find_insert, if_neg]
  · exact kept here
  · rintro ⟨rfl, rfl⟩
    cases empty.symm.trans here

/-- What holds of all names kept, and of one more that is put in, holds of all then. -/
theorem forall_insert {Right : Int → NameForm → String → Prop}
    (all : ∀ ⦃address form name⦄, cells.find address form = some name → Right address form name)
    {address : Int} {form : NameForm} {name : String} (right : Right address form name) :
    ∀ ⦃place other called⦄, (cells.insert address name form).find place other = some called →
      Right place other called := by
  intro place other called here
  rw [find_insert] at here
  split at here
  · next same =>
    obtain ⟨rfl, rfl⟩ := same
    exact Option.some.inj here ▸ right
  · exact all here

end NameCells

namespace Context

variable {ctx : Context} {t : TypeInfo}

/-- The same program, examined within other limits or stopped. -/
def withSettings (ctx : Context) (limits : Limits) (cancelled : Bool) : Context :=
  { ctx with limits := limits, cancelled := cancelled }

/-! ### Names -/

/-- If the marks are strings, the name of a type_info is the string that would be marked for it. -/
theorem typeNameAt_of_marked {known : Knowledge} (marked : ctx.image.Marked known.marks)
    {address place : Int}
    (resolved : ctx.image.resolve (address + ctx.image.ptr) = .ok (some place)) :
    typeNameAt ctx address known =
      .ok (((ctx.image.markString known.marks place).1.map (withoutLocalMark ·.text)).getD "")
        { known with marks := (ctx.image.markString known.marks place).2 } := by
  rw [typeNameAt, bind_ok (lift_ok known resolved)]
  dsimp only
  rw [get_bind]
  cases found : known.marks.at? place with
  | some m =>
    rw [marked.markString_of_at? found]
    rfl
  | none => rfl

/-- A name is read again as it was read once, since a mark stays where it was made, and a string
    that could not be marked can never be. -/
theorem typeNameAt_again {k after later : Knowledge} {address : Int} {name : String}
    (marked : ctx.image.Marked k.marks) (answered : typeNameAt ctx address k = .ok name after)
    (still : ctx.image.Marked later.marks) (kept : ∀ m ∈ after.marks, m ∈ later.marks) :
    typeNameAt ctx address later = .ok name later := by
  -- The name is looked for behind the word after the type_info's first one. Marks play a part only
  -- if that word leads somewhere.
  cases resolved : ctx.image.resolve (address + ctx.image.ptr) with
  | error fault =>
    rw [typeNameAt, bind_error (lift_error k resolved)] at answered
    cases answered
  | ok value =>
    cases value with
    | none =>
      rw [typeNameAt, bind_ok (lift_ok _ resolved)] at answered ⊢
      cases answered
      rfl
    | some place =>
      rw [typeNameAt_of_marked marked resolved] at answered
      cases answered
      rw [typeNameAt_of_marked still resolved, marked.markString_again still place kept]

/-- Only a word that cannot be read prevents reading a name, and then nothing changes. -/
theorem of_typeNameAt_error {known after : Knowledge} {address : Int} {fault : Fault}
    (stopped : typeNameAt ctx address known = .error fault after) :
    ctx.image.resolve (address + ctx.image.ptr) = .error fault ∧ after = known := by
  cases resolved : ctx.image.resolve (address + ctx.image.ptr) with
  | error other =>
    rw [typeNameAt, bind_error (lift_error known resolved)] at stopped
    cases stopped
    exact ⟨rfl, rfl⟩
  | ok value =>
    rw [typeNameAt, bind_ok (lift_ok known resolved)] at stopped
    cases value with
    | none => cases stopped
    | some place =>
      dsimp only at stopped
      rw [get_bind] at stopped
      -- Once the word leads somewhere the name is read, from a mark or from the string that is
      -- marked then.
      cases found : known.marks.at? place with
      | some m =>
        simp only [found] at stopped
        cases stopped
      | none =>
        simp only [found] at stopped
        cases stopped

/-- With these marks the type_info at `address` has the name, and nothing is marked to read it. -/
def ReadsName (ctx : Context) (marks : Marks) (address : Int) (name : String) : Prop :=
  ∀ known : Knowledge, known.marks = marks → typeNameAt ctx address known = .ok name known

/-- Once a name was read, the marks tell it. -/
theorem readsName_of_typeNameAt {k after : Knowledge} {address : Int} {name : String}
    (marked : ctx.image.Marked k.marks) (answered : typeNameAt ctx address k = .ok name after)
    (still : ctx.image.Marked after.marks) : ctx.ReadsName after.marks address name := by
  intro known same
  rw [← same] at still
  exact typeNameAt_again marked answered still fun m member => same ▸ member

/-- Marks that are added later do not change a name that was read. -/
theorem ReadsName.mono {marks later : Marks} {address : Int} {name : String}
    (reads : ctx.ReadsName marks address name) (marked : ctx.image.Marked marks)
    (still : ctx.image.Marked later) (kept : ∀ m ∈ marks, m ∈ later) :
    ctx.ReadsName later address name := by
  intro known same
  have before := reads { known with marks := marks } rfl
  rw [← same] at still kept
  exact typeNameAt_again marked before still kept

/-! ### Walks -/

/-- Reading direct bases changes no cell. -/
theorem readBases_keeps (ctx : Context) (t : TypeInfo)
    (S : Std.TreeMap Int (List Base) → Prop) :
    Keeps (fun k => S k.bases) Any (t.readBases ctx) := by
  have reads : Reading ctx ctx.image.relocations (.holding fun k => S k.bases) Any :=
    reading_holding (fun _ => trivial) fun _ same => same
  exact (reads.readBases (fun _ => trivial) t).any

/-- Following edges changes or empties no cell with direct bases. -/
theorem following_kept (ctx : Context) (cells : Std.TreeMap Int (List Base)) :
    Following ctx ctx.image.relocations (.holding fun k => Cells.Kept cells k.bases) Any := by
  refine following_holding (fun _ => trivial) (fun _ kept => kept) (fun _ _ _ _ _ => trivial) ?_
  intro before k t bases earlier new kept _ _ _
  exact kept.insertNew bases (earlier.none new)

/-- Direct bases that were answered are known. -/
theorem known_of_bases {known after : Knowledge} {bases : List Base}
    (answered : t.bases ctx known = .ok bases after) : after.bases[t.address]? = some bases := by
  rw [TypeInfo.bases] at answered
  exact known_of_remember (fun _ _ => Std.TreeMap.getElem?_insert_self) answered

/-- Direct bases that are known are given, whatever the limits. -/
theorem bases_of_known {known : Knowledge} {bases : List Base}
    (kept : known.bases[t.address]? = some bases) : t.bases ctx known = .ok bases known := by
  rw [TypeInfo.bases]
  exact remember_of_known kept

section Walks

variable (limits : Limits) (cancelled : Bool) {k after later : Knowledge} {edges : List Base}

/-- A walk is repeated by following the bases that it left behind.  The induction is on the number
    of classes that it may enter. -/
theorem edgesFrom_again {fuel : Nat} {seen : List Int} {pending : List Base}
    (walked : edgesFrom ctx fuel seen pending k = .ok edges after)
    (kept : Cells.Kept after.bases later.bases) :
    edgesFrom (ctx.withSettings limits cancelled) fuel seen pending later = .ok edges later := by
  induction fuel generalizing seen pending k edges with
  | zero =>
    cases walked
    rfl
  | succ fuel ih =>
    rw [edgesFrom] at walked ⊢
    cases new : pending.dropWhile (fun e => seen.contains e.target.address) with
    | nil =>
      simp only [new] at walked ⊢
      cases walked
      rfl
    | cons edge rest =>
      simp only [new] at walked ⊢
      obtain ⟨below, middle, answered, walked⟩ := of_bind_ok walked
      obtain ⟨more, last, deeper, walked⟩ := of_bind_ok walked
      cases walked
      -- the rest of the walk leaves the bases of the class just entered where they are
      have keeps : Keeps (fun k => Cells.Kept middle.bases k.bases) _
          (edgesFrom ctx fuel (edge.target.address :: seen) (below ++ rest)) :=
        (ctx.following_kept middle.bases).edgesFrom fuel _ _ fun _ _ => trivial
      have grows := (keeps.of_ok (.refl _) deeper).2
      rw [bind_ok (bases_of_known (kept (grows (known_of_bases answered)))),
        bind_ok (ih deeper)]
      rfl

/-- A walk from a class is repeated in the same way. -/
theorem edges_again (walked : t.edges ctx k = .ok edges after)
    (kept : Cells.Kept after.bases later.bases) :
    t.edges (ctx.withSettings limits cancelled) later = .ok edges later := by
  rw [TypeInfo.edges] at walked ⊢
  obtain ⟨bases, middle, answered, walked⟩ := of_bind_ok walked
  have keeps : Keeps (fun k => Cells.Kept middle.bases k.bases) _
      (edgesFrom ctx ctx.image.classBound [t.address] bases) :=
    (ctx.following_kept middle.bases).edgesFrom _ _ _ fun _ _ => trivial
  have grows := (keeps.of_ok (.refl _) walked).2
  rw [bind_ok (bases_of_known (kept (grows (known_of_bases answered))))]
  exact edgesFrom_again limits cancelled walked kept

/-- With these direct bases a walk from the class lists the edges, and no bases are read for it. -/
def ListsEdges (ctx : Context) (cells : Std.TreeMap Int (List Base)) (t : TypeInfo)
    (edges : List Base) : Prop :=
  ∀ known : Knowledge, known.bases = cells → t.edges ctx known = .ok edges known

/-- Once a class was walked over, the direct bases that are kept tell its edges. -/
theorem listsEdges_of_edges (walked : t.edges ctx k = .ok edges after) :
    ctx.ListsEdges after.bases t edges := by
  intro known same
  exact edges_again ctx.limits ctx.cancelled walked (same ▸ .refl _)

/-- Direct bases that are added later do not change a walk that ended, nor do other limits. -/
theorem ListsEdges.mono {cells later : Std.TreeMap Int (List Base)}
    (lists : ctx.ListsEdges cells t edges) (kept : Cells.Kept cells later) :
    (ctx.withSettings limits cancelled).ListsEdges later t edges := by
  intro known same
  have before := lists { known with bases := cells } rfl
  exact edges_again limits cancelled before (same ▸ kept)

end Walks

/-- The virtual bases among the targets of edges. -/
def virtualsIn (edges : List Base) : List TypeInfo :=
  firstOccurrences ((edges.filter (·.isVirtual)).map (·.target))

end Context

end ItaniumRtti
