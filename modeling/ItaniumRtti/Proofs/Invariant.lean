import ItaniumRtti.Proofs.WellFormed

namespace ItaniumRtti

/-!
# What an analysis keeps

Names of classes may overlap, and then what is learned about one class can depend on which classes
were named before.  Some things hold of the knowledge of every analysis all the same.

* `Recover.Link.exceptStores` — states that satisfy an invariant and differ in their stores only;
* `Context.Stable` — an invariant that reading names and walking over base graphs does not break;
* `Context.Stable.locating` — from states that satisfy it, walks over base graphs end alike;
* `Context.Orderly` — the invariant of an analysis: bases are right, and the tables of vtables serve
  classes that can be reached;
* `Context.orderlyReports` — classes are reported, and the knowledge stays orderly.
-/

open Recover

namespace Recover

variable {α : Type} {S : Knowledge → Prop} {F : Fault → Prop} {P : α → Prop} {q : Recover α}

/-- Two runs whose states satisfy `S` and differ in their stores only. -/
def Link.exceptStores (S : Knowledge → Prop) (F : Fault → Prop) : Link where
  states k k' := (∃ book, k' = { k with stores := book }) ∧ S k ∧ S k'
  faults := F

theorem Link.exceptStores_refl {known : Knowledge} (holds : S known) :
    (Link.exceptStores S F).states known known :=
  ⟨⟨known.stores, rfl⟩, holds, holds⟩

/-- How a single run of such a question ends. -/
theorem Alike.ends (alike : Alike (.exceptStores S F) P q q) {known : Knowledge}
    (holds : S known) :
    (∃ a after, q known = .ok a after ∧ P a ∧ S after) ∨
      ∃ fault after, q known = .error fault after ∧ F fault ∧ S after := by
  rcases (alike known known (Link.exceptStores_refl holds)).cases with
    ⟨a, after, _, answered, _, good, _, still, _⟩ |
    ⟨fault, after, _, stopped, _, allowed, _, still, _⟩
  · exact .inl ⟨a, after, answered, good, still⟩
  · exact .inr ⟨fault, after, stopped, allowed, still⟩

/-- The answers of a question that would always get its first answer are that answer. -/
theorem Alike.andFresh (alike : Alike (.exceptStores S F) P q q)
    (first : ∀ {known a after}, S known → q known = .ok a after → Fresh q a) :
    Alike (.exceptStores S F) (fun a => Fresh q a ∧ P a) q q := by
  intro k k' related
  rcases (alike k k' related).cases with
    ⟨a, l, l', here, there, good, after⟩ | ⟨fault, l, l', here, there, allowed, after⟩
  · rw [here, there]
    exact .ok ⟨first related.2.1 here, good⟩ after
  · rw [here, there]
    exact .error allowed after

/-- A question that is remembered outside of the stores is answered alike if it is answered alike
    when it is asked. -/
theorem remember_exceptStores {find : Knowledge → Option α} {keep : α → Knowledge → Knowledge}
    (finds : ∀ known book, find { known with stores := book } = find known)
    (keeps : ∀ a known book,
      keep a { known with stores := book } = { keep a known with stores := book })
    (sure : ∀ {known a}, S known → find known = some a → P a)
    (alike : Alike (.exceptStores S F) P q q)
    (kept : ∀ {before known a}, S before → find before = none → S known → P a → S (keep a known)) :
    Alike (.exceptStores S F) P (remember find keep q) (remember find keep q) := by
  rintro k _ ⟨⟨book, rfl⟩, holds, holds'⟩
  -- Both states have the answer, or neither has.
  rw [remember, get_bind, get_bind, finds k book]
  cases found : find k with
  | some a => exact .ok (sure holds found) ⟨⟨book, rfl⟩, holds, holds'⟩
  | none =>
    dsimp only
    refine Alike.bind alike (fun a good => ?_) _ _ ⟨⟨book, rfl⟩, holds, holds'⟩
    refine (Alike.modify ?_).bind fun _ _ => .pure good
    rintro l _ ⟨⟨other, rfl⟩, still, still'⟩
    exact ⟨⟨other, keeps a l other⟩, kept holds found still good, kept holds found still' good⟩

end Recover

namespace Context

variable {ctx : Context} {S : Knowledge → Prop} {F : Fault → Prop}

/-! ### Walks -/

/-- An invariant that neither names nor walks over base graphs break. -/
structure Stable (ctx : Context) (S : Knowledge → Prop) : Prop where
  /-- Bases are right. -/
  bases : ∀ {known}, S known → ctx.SoundBases known
  /-- A class may be met. -/
  meet : ∀ {known} t, S known → S (known.meet t)
  /-- Strings may be marked. -/
  marks : ∀ {known} marks, S known → S { known with marks := marks }
  /-- Names may be kept. -/
  names : ∀ {known} names, S known → S { known with names := names }
  /-- Direct bases that were read may be kept. -/
  read : ∀ {known t bases}, S known → ctx.Identified t → Fresh (t.readBases ctx) bases →
    S { known with bases := known.bases.insert t.address bases }
  /-- Virtual bases that were collected may be kept. -/
  collected : ∀ {known t classes}, S known → ctx.Identified t →
    Fresh (t.collectVirtualBases ctx) classes →
    S { known with virtualBases := known.virtualBases.insert t.address classes }
  /-- Tables of vtables may be kept. -/
  vtts : ∀ {known} vtts, S known → S { known with vtts := vtts }

/-- Walks from `t` meet only faults of `F`: no class is malformed, unless such faults are among
    them. -/
def Admits (ctx : Context) (F : Fault → Prop) (t : TypeInfo) : Prop :=
  (∀ what, F (.malformed what)) ∨ ctx.WellFormed t

/-- What is admitted from a class on is admitted from the classes below it. -/
theorem Admits.below {t c : TypeInfo} (admits : ctx.Admits F t) (below : ctx.Below t c) :
    ctx.Admits F c :=
  admits.imp_right fun wellFormed _ reached => wellFormed (below.2.trans reached)

/-- Reading direct bases needs no knowledge. -/
theorem readBases_initial (t : TypeInfo) (known : Knowledge) :
    (∃ bases after before, t.readBases ctx known = .ok bases after ∧
      t.readBases ctx .initial = .ok bases before) ∨
    ∃ fault after before, t.readBases ctx known = .error fault after ∧
      t.readBases ctx .initial = .error fault before := by
  have alike : Alike (.invariant Any Any) _ (t.readBases ctx) (t.readBases ctx) :=
    (ctx.reading (tolerates_any ctx) fun _ _ => trivial).readBases (fun _ => trivial) t
  rcases (alike known .initial ⟨trivial, trivial⟩).cases with
    ⟨bases, after, before, here, first, -⟩ | ⟨fault, after, before, here, first, -⟩
  · exact .inl ⟨bases, after, before, here, first⟩
  · exact .inr ⟨fault, after, before, here, first⟩

/-- Names are read alike, whatever stores are known. -/
theorem typeNameAt_exceptStores
    (marks : ∀ {known : Knowledge} marks, S known → S { known with marks := marks })
    (tolerates : ctx.Tolerates F) (address : Int) :
    Alike (.exceptStores S F) Any (typeNameAt ctx address) (typeNameAt ctx address) := by
  rw [typeNameAt]
  refine (Alike.liftAny (tolerates.resolve _)).bind fun value _ => ?_
  cases value with
  | none => exact .pure trivial
  | some place =>
    -- The marks are the same in both states.
    rintro k _ ⟨⟨book, rfl⟩, holds, holds'⟩
    dsimp only
    rw [get_bind, get_bind]
    cases k.marks.at? place with
    | some mark => exact .ok trivial ⟨⟨book, rfl⟩, holds, holds'⟩
    | none => exact .ok trivial ⟨⟨book, rfl⟩, marks _ holds, marks _ holds'⟩

/-- The cells of names are the same, whatever stores are known. -/
theorem nameCell_exceptStores
    (names : ∀ {known : Knowledge} names, S known → S { known with names := names })
    {t : TypeInfo} (form : NameForm)
    (alike : Alike (.exceptStores S F) Any (t.readName ctx form) (t.readName ctx form)) :
    Alike (.exceptStores S F) Any (t.nameAs ctx form) (t.nameAs ctx form) :=
  remember_exceptStores (fun _ _ => rfl) (fun _ _ _ => rfl) (fun _ _ => trivial) alike
    fun _ _ holds _ => names _ holds

/-- Names are found alike, whatever stores are known. -/
theorem naming_exceptStores {Named : TypeInfo → Prop}
    (reading : Reading ctx ctx.image.relocations (.exceptStores S F) Named)
    (marks : ∀ {known : Knowledge} marks, S known → S { known with marks := marks })
    (names : ∀ {known : Knowledge} names, S known → S { known with names := names }) :
    Naming ctx ctx.image.relocations (.exceptStores S F) Named where
  toReading := reading
  typeNameAt {t} _ := typeNameAt_exceptStores marks reading.tolerates t.address
  nameCell {t} form _ alike := nameCell_exceptStores names form alike
  nameOf {t} _ := by
    have read : Alike (.exceptStores S F) Any _ _ :=
      typeNameAt_exceptStores marks reading.tolerates t.address
    rintro k _ ⟨⟨book, rfl⟩, holds, holds'⟩
    show EndAlike _ Any (nameOf ctx t k) (nameOf ctx t { k with stores := book })
    rw [nameOf, get_bind, get_bind]
    -- The same classes have been met in both states.
    cases k.classes.contains t.address with
    | true =>
      simp only [↓reduceIte]
      exact nameCell_exceptStores names .mangled read k _ ⟨⟨book, rfl⟩, holds, holds'⟩
    | false =>
      simp only [Bool.false_eq_true, ↓reduceIte]
      exact read k _ ⟨⟨book, rfl⟩, holds, holds'⟩

namespace Stable

variable (stable : ctx.Stable S) (tolerates : ctx.Tolerates F)
include stable tolerates

/-- Words are read alike. -/
theorem reading : Reading ctx ctx.image.relocations (.exceptStores S F) ctx.Identified where
  reads := ctx.readsAlike_self
  tolerates := tolerates
  good found := identified_of_identify found
  meet _ := by
    rintro ⟨⟨book, rfl⟩, holds, holds'⟩
    exact ⟨⟨book, rfl⟩, stable.meet _ holds, stable.meet _ holds'⟩

/-- Names are found alike. -/
theorem naming : Naming ctx ctx.image.relocations (.exceptStores S F) ctx.Identified :=
  naming_exceptStores (stable.reading tolerates) stable.marks stable.names

/-- The direct bases of a class below `t` are read alike; they are below `t`, too. -/
theorem readBases {t c : TypeInfo} (admits : ctx.Admits F t) (below : ctx.Below t c) :
    Alike (.exceptStores S F)
      (fun bases => Fresh (c.readBases ctx) bases ∧ ∀ b ∈ bases, ctx.Below t b.target)
      (c.readBases ctx) (c.readBases ctx) := by
  -- Faults of malformed classes are let through, and ruled out afterwards.
  let G : Fault → Prop := fun fault => F fault ∨ ∃ what, fault = .malformed what
  have more : ctx.Tolerates G := {
    cancelled := fun stopped => .inl (tolerates.cancelled stopped)
    byteOrder := fun unknown => .inl (tolerates.byteOrder unknown)
    unfitLimit := fun unfit => .inl (tolerates.unfitLimit unfit) }
  have read := (stable.reading more).readBases (fun what => .inr ⟨what, rfl⟩) c
  intro k k' related
  rcases (read k k' related).cases with
    ⟨bases, l, l', here, there, targets, after⟩ | ⟨fault, l, l', here, there, allowed, after⟩
  · rw [here]
    show EndAlike _ _ _ (c.readBases ctx k')
    rw [show c.readBases ctx k' = _ from there]
    rcases readBases_initial c k with ⟨_, _, first, again, fresh⟩ | ⟨_, _, _, again, -⟩
    · cases here.symm.trans again
      exact .ok ⟨⟨first, fresh⟩, fun b member =>
        ⟨targets b member, below.2.base ⟨first, fresh⟩ member⟩⟩ after
    · cases here.symm.trans again
  · rw [here]
    show EndAlike _ _ _ (c.readBases ctx k')
    rw [show c.readBases ctx k' = _ from there]
    refine .error ?_ after
    rcases allowed with known | ⟨what, rfl⟩
    · exact known
    · refine (admits.below below).resolve_right (fun wellFormed => ?_) what
      obtain ⟨bases, first, fresh⟩ := wellFormed .self
      rcases readBases_initial c k with ⟨_, _, _, again, -⟩ | ⟨_, _, _, again, failed⟩
      · cases here.symm.trans again
      · cases failed.symm.trans fresh

/-- Walks from the class go alike. -/
theorem walking {t : TypeInfo} (admits : ctx.Admits F t) :
    Walking ctx ctx.image.relocations (.exceptStores S F) (ctx.Below t) where
  bound := rfl
  bases {c} below := by
    have cell : Alike (.exceptStores S F)
        (fun bases => Fresh (c.readBases ctx) bases ∧ ∀ b ∈ bases, ctx.Below t b.target)
        (c.bases ctx) (c.bases ctx) := by
      rw [TypeInfo.bases]
      refine remember_exceptStores (fun _ _ => rfl) (fun _ _ _ => rfl) (fun holds found => ?_)
        (stable.readBases tolerates admits below)
        fun _ _ holds good => stable.read holds below.1 good.1
      have fresh := (stable.bases holds).1 below.1 found
      have initial : ctx.SoundBases .initial := soundBases_initial
      obtain ⟨targets, -⟩ := bases_of_fresh below.1 fresh initial
      exact ⟨fresh, fun b member => ⟨targets b member, below.2.base fresh member⟩⟩
    exact cell.mono fun _ good => good.2
  virtualCell {c} below alike := by
    -- Bases are right, so what is collected is what a first walk would collect.
    have first : ∀ {known classes after}, S known →
        c.collectVirtualBases ctx known = .ok classes after →
        Fresh (c.collectVirtualBases ctx) classes :=
      fun holds collected => (of_collectVirtualBases_ok below (stable.bases holds) collected).1
    have cell : Alike (.exceptStores S F)
        (fun classes => Fresh (c.collectVirtualBases ctx) classes ∧ ∀ b ∈ classes, ctx.Below t b)
        (c.virtualBases ctx) (c.virtualBases ctx) := by
      rw [TypeInfo.virtualBases]
      refine remember_exceptStores (fun _ _ => rfl) (fun _ _ _ => rfl) (fun holds found => ?_)
        (Alike.andFresh alike first) fun _ _ holds good => stable.collected holds below.1 good.1
      have fresh := (stable.bases holds).2 below.1 found
      obtain ⟨after, collected⟩ := fresh
      exact of_collectVirtualBases_ok below soundBases_initial collected
    exact cell.mono fun _ good => good.2

/-- Walks from `t` end alike, and they and reading names keep the invariant. -/
theorem locating {t : TypeInfo} (admits : ctx.Admits F t) :
    Locating ctx ctx.image.relocations (.exceptStores S F) ctx.Identified (ctx.Below t) where
  toNaming := stable.naming tolerates
  toWalking := stable.walking tolerates admits
  named below := below.1

end Stable

/-! ### The invariant -/

/-- What holds of the knowledge of every analysis.  `Kept` holds of vtables that are known already,
    by the addresses of their classes. -/
structure Orderly (ctx : Context) (detector : Option Detector) (Kept : Int → Vtable → Prop)
    (known : Knowledge) : Prop where
  /-- Bases are right. -/
  bases : ctx.SoundBases known
  /-- The tables of a vtable serve classes that can be reached from its class. -/
  vtables : ∀ ⦃t v⦄, ctx.Identified t → known.vtables[t.address]? = some v →
    v.Found ctx.image (ctx.Below t)
  /-- Stores are those that the detector finds. -/
  stores : ∀ d ∈ detector, ctx.SoundStores d known.stores
  /-- Vtables that are known stay known. -/
  kept : ∀ {address v}, Kept address v → known.vtables[address]? = some v

variable {detector : Option Detector} {Kept : Int → Vtable → Prop}

theorem orderly_initial : ctx.Orderly detector (fun _ _ => False) .initial where
  bases := soundBases_initial
  vtables _ _ _ kept := by cases kept
  stores d _ := ctx.soundStores_initial d
  kept never := never.elim

/-- The book may be replaced by another one that is right. -/
theorem Orderly.withStores {known : Knowledge} (orderly : ctx.Orderly detector Kept known)
    {d : Detector} (given : d ∈ detector) {book : StoreBook} (right : ctx.SoundStores d book) :
    ctx.Orderly detector Kept { known with stores := book } :=
  { orderly with stores := fun _ also => Option.mem_unique given also ▸ right }

/-- Neither names nor walks break the order. -/
theorem stable_orderly : ctx.Stable (ctx.Orderly detector Kept) where
  bases orderly := orderly.bases
  meet _ orderly := { orderly with }
  marks _ orderly := { orderly with }
  names _ orderly := { orderly with }
  read orderly identified fresh :=
    { orderly with bases := orderly.bases.insertDirect identified fresh }
  collected orderly identified fresh :=
    { orderly with bases := orderly.bases.insertVirtual identified fresh }
  vtts _ orderly := { orderly with }

/-! ### Targets of searches -/

/-- A pointer can hold every target that an analysis searches for: the words that tell classes, the
    addresses of classes, and the ends of blocks and with them the address points of vtables. -/
structure InRange (ctx : Context) : Prop where
  /-- The words that tell classes. -/
  roots : ∀ p ∈ ctx.roots.points, p.1 < ctx.image.width.span
  /-- The addresses of classes. -/
  classes : ∀ {t}, ctx.Identified t → t.address < ctx.image.width.span
  /-- The ends of blocks with contents. -/
  blocks : ∀ b ∈ ctx.image.blocks, b.initialized = true → b.stop < ctx.image.width.span

/-- Searches meet only faults of `F`. -/
def Searches (ctx : Context) (F : Fault → Prop) : Prop :=
  F .targetRange ∨ ctx.InRange

/-- The fault of a search for a target that no pointer can hold. -/
def OutOfRange (ctx : Context) (fault : Fault) : Prop :=
  fault = .targetRange ∧ ¬ ctx.InRange

/-- Searches meet no other fault than this one. -/
theorem searches_outOfRange : ctx.Searches ctx.OutOfRange := by
  by_cases inRange : ctx.InRange
  · exact .inr inRange
  · exact .inl ⟨rfl, inRange⟩

/-- The words that tell classes can be searched for. -/
theorem Searches.root (searches : ctx.Searches F) :
    ∀ p ∈ ctx.roots.points, ctx.Searchable F p.1 :=
  fun p member => searches.imp_right fun inRange => inRange.roots p member

/-- So can the addresses of classes. -/
theorem Searches.address (searches : ctx.Searches F) {t : TypeInfo}
    (identified : ctx.Identified t) : ctx.Searchable F t.address :=
  searches.imp_right fun inRange => inRange.classes identified

/-- So can the address points of vtables, which lie in blocks. -/
theorem Searches.addressPoint (searches : ctx.Searches F) {v : Vtable} {Good : TypeInfo → Prop}
    (found : v.Found ctx.image Good) :
    ∀ primary ∈ v.primary?, ctx.Searchable F primary.addressPoint := by
  intro primary first
  obtain ⟨b, member, initialized, before⟩ := found.inside primary first
  refine Searchable.mono (searches.imp_right fun inRange => ?_) before
  exact inRange.blocks b member initialized

/-! ### Reports -/

variable (tolerates : ctx.Tolerates F) (searches : ctx.Searches F)
include tolerates searches

/-- The vtable of a class is known or can be located, and its tables serve classes that can be
    reached. -/
theorem orderly_vtable {t : TypeInfo} (admits : ctx.Admits F t) (identified : ctx.Identified t) :
    Alike (.exceptStores (ctx.Orderly detector Kept) F) (Vtable.Found ctx.image (ctx.Below t))
      (t.vtable ctx) (t.vtable ctx) := by
  have located : Alike (.exceptStores (ctx.Orderly detector Kept) F) _ (t.locateVtable ctx)
      (t.locateVtable ctx) :=
    (stable_orderly.locating tolerates admits).locateVtable ⟨identified, .self⟩
      (searches.address identified)
  rw [TypeInfo.vtable]
  refine remember_exceptStores (fun _ _ => rfl) (fun _ _ _ => rfl)
    (fun orderly kept => orderly.vtables identified kept) located
    fun {before known v} earlier new orderly found => ?_
  refine { orderly with
    vtables := forall_insert_address orderly.vtables identified found
    kept := fun {address w} stays => ?_ }
  -- The vtable was not known before, so it is not one that has to stay.
  have other : t.address ≠ address := by
    rintro rfl
    cases new.symm.trans (earlier.kept stays)
  show (known.vtables.insert t.address v)[address]? = some w
  rw [Std.TreeMap.getElem?_insert, if_neg fun same => other (Std.compare_eq_iff_eq.mp same)]
  exact orderly.kept stays

variable (running : ctx.cancelled = false) (answers : ∀ d ∈ detector, ctx.Answers d)
include running answers

variable (Kept) in
/-- **An analysis keeps its knowledge orderly.**  From orderly states all questions that a report
    of `t` needs end alike, whatever stores are known, and leave orderly states behind. -/
theorem orderlyReports {t : TypeInfo} (admits : ctx.Admits F t) :
    ReportSimulation ctx ctx.image.relocations (.exceptStores (ctx.Orderly detector Kept) F)
      ctx.Identified (ctx.Below t) (fun c => Vtable.Found ctx.image (ctx.Below c))
      (· ∈ ctx.image.functions) detector where
  toLocating := stable_orderly.locating tolerates admits
  again below found := by
    rw [below.1] at found
    cases found
    exact below
  vtable {c} below := orderly_vtable tolerates searches (admits.below below) below.1
  serves below found table listed base attached := by
    obtain ⟨s, reached, starts⟩ := found.serves table listed base attached
    exact ⟨s, below.trans reached, starts⟩
  searchable _ found := searches.addressPoint found
  vttCell {c} below alike := by
    show Alike _ _ (c.vtt ctx) (c.vtt ctx)
    rw [TypeInfo.vtt]
    exact remember_exceptStores (fun _ _ => rfl) (fun _ _ _ => rfl) (fun _ _ => trivial) alike
      fun _ _ orderly _ => stable_orderly.vtts _ orderly
  storesOf d given f member := by
    rintro k _ ⟨⟨book, rfl⟩, orderly, orderly'⟩
    obtain ⟨after, right, found⟩ :=
      storesOf_spec running (answers d given) (orderly.stores d given) member
    obtain ⟨after', right', found'⟩ :=
      storesOf_spec running (answers d given) (orderly'.stores d given) member
    show EndAlike _ Any (storesOf ctx d f _) (storesOf ctx d f _)
    rw [found, found']
    exact .ok trivial
      ⟨⟨after', rfl⟩, orderly.withStores given right, orderly'.withStores given right'⟩
  functionsStoring d given values := by
    rintro k _ ⟨⟨book, rfl⟩, orderly, orderly'⟩
    obtain ⟨after, right, found⟩ :=
      functionsStoring_spec running (answers d given) (orderly.stores d given) values
    obtain ⟨after', right', found'⟩ :=
      functionsStoring_spec running (answers d given) (orderly'.stores d given) values
    show EndAlike _ _ (functionsStoring ctx d values _) (functionsStoring ctx d values _)
    rw [found, found']
    exact .ok (fun f member => List.mem_of_mem_filter member)
      ⟨⟨after', rfl⟩, orderly.withStores given right, orderly'.withStores given right'⟩

end Context

end ItaniumRtti
