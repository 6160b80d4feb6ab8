import ItaniumRtti.Proofs.Marks
import ItaniumRtti.Proofs.Simulation.Discovery
import ItaniumRtti.Proofs.Simulation.Report
import ItaniumRtti.Proofs.StoreBook

namespace ItaniumRtti

/-!
# Sound knowledge

Knowledge is sound if each answer that it keeps is the answer that a first question would get.
Questions are answered alike from any sound knowledge, and leave it sound.

* `Context.NamesApart` — the names of classes do not overlap;
* `Context.Sound` — the invariant of knowledge;
* `Context.soundSimulation`, `Context.soundReports` — questions are answered alike from any two
  sound states.
-/

open Recover

/-! ### Names -/

namespace Context

variable (ctx : Context)

/-- The class is what recognition finds at its address. -/
def Identified (t : TypeInfo) : Prop :=
  ctx.roots.identify ctx.image t.address = .ok (some t)

/-- The name of the class is the string `m`. -/
def Names (t : TypeInfo) (m : Mark) : Prop :=
  t.nameAddress ctx.image = .ok (some m.address) ∧ ctx.image.stringAt? m.address = some m

/-- The names of any two classes start at the same address or do not overlap. -/
def NamesApart : Prop :=
  ∀ {s t : TypeInfo} {m n : Mark}, ctx.Identified s → ctx.Identified t → ctx.Names s m →
    ctx.Names t n → m.address = n.address ∨ m.stop ≤ n.address ∨ n.stop ≤ m.address

/-- Every mark is the name of a class. -/
def SoundMarks (marks : Marks) : Prop :=
  ∀ m ∈ marks, ∃ t, ctx.Identified t ∧ ctx.Names t m

end Context

/-- The name that the type_info at `address` points at, if no mark stands in the way. -/
def Image.nameAt (img : Image) (address : Int) : Except Fault String := do
  match ← img.resolve (address + img.ptr) with
  | none => return ""
  | some place => return ((img.stringAt? place).map (withoutLocalMark ·.text)).getD ""

namespace Context

variable {ctx : Context}

/-- The string at the name address of a class is marked already, or can be. -/
theorem markString_of_apart (apart : ctx.NamesApart) {t : TypeInfo} {m : Mark}
    (identified : ctx.Identified t) (named : ctx.Names t m) {marks : Marks}
    (sound : ctx.SoundMarks marks) (new : marks.at? m.address = none) :
    ∃ more, ctx.image.markString marks m.address = (some m, more) ∧ ctx.SoundMarks more := by
  -- Each mark is the name of a class, and no class is marked at this address.
  have others : ∀ x ∈ marks, x.stop ≤ m.address ∨ m.stop ≤ x.address := by
    intro x member
    obtain ⟨s, is, called⟩ := sound x member
    refine (apart is identified called named).resolve_left fun same => ?_
    have unmarked := List.find?_eq_none.mp new x member
    exact unmarked (beq_iff_eq.mpr same)
  obtain ⟨more, placed, members⟩ := Marks.place?_of_apart others
  refine ⟨more, ?_, fun x member => ?_⟩
  · rw [Image.markString, named.2]
    show marks.add m = _
    rw [Marks.add, new]
    dsimp only
    rw [placed]
  · rcases (members x).mp member with rfl | old
    · exact ⟨t, identified, named⟩
    · exact sound x old

/-- Marking the name of a class gives the string that stands there, and leaves the marks sound. -/
theorem markString_of_new (apart : ctx.NamesApart) {t : TypeInfo} (identified : ctx.Identified t)
    {place : Int} (resolved : t.nameAddress ctx.image = .ok (some place)) {known : Knowledge}
    (sound : ctx.SoundMarks known.marks) (new : known.marks.at? place = none) :
    ∃ more, ctx.SoundMarks more ∧
      markString ctx place known =
        .ok (ctx.image.stringAt? place) { known with marks := more } := by
  have opened : markString ctx place known =
      .ok (ctx.image.markString known.marks place).1
        { known with marks := (ctx.image.markString known.marks place).2 } := rfl
  rw [opened]
  -- Where there is no string, nothing is marked.
  cases string : ctx.image.stringAt? place with
  | none =>
    refine ⟨known.marks, sound, ?_⟩
    rw [Image.markString, string]
  | some m =>
    have starts := Image.address_of_stringAt? string
    subst starts
    obtain ⟨more, added, still⟩ :=
      markString_of_apart apart identified ⟨resolved, string⟩ sound new
    exact ⟨more, still, by rw [added]⟩

/-- A name is read alike from any sound marks, and leaves them sound. -/
theorem typeNameAt_eq_lift (apart : ctx.NamesApart) {t : TypeInfo} (identified : ctx.Identified t)
    {known : Knowledge} (sound : ctx.SoundMarks known.marks) :
    ∃ marks, ctx.SoundMarks marks ∧ typeNameAt ctx t.address known =
      lift (ctx.image.nameAt t.address) { known with marks := marks } := by
  rw [typeNameAt, Image.nameAt]
  cases resolved : ctx.image.resolve (t.address + ctx.image.ptr) with
  | error fault => exact ⟨known.marks, sound, bind_error (lift_error known rfl)⟩
  | ok value =>
    rw [bind_ok (lift_ok known rfl)]
    cases value with
    | none => exact ⟨known.marks, sound, rfl⟩
    | some place =>
      dsimp only
      rw [get_bind]
      cases marked : known.marks.at? place with
      | some m =>
        -- The mark is the name of some class, and so the string that stands there.
        obtain ⟨s, -, named⟩ := sound m (List.mem_of_find?_eq_some marked)
        have string : ctx.image.stringAt? place = some m :=
          Marks.address_of_at? marked ▸ named.2
        refine ⟨known.marks, sound, ?_⟩
        show _ = lift (Except.ok _) known
        rw [string]
        rfl
      | none =>
        obtain ⟨more, still, made⟩ := markString_of_new apart identified resolved sound marked
        exact ⟨more, still, bind_ok made⟩

end Context

/-! ### First answers -/

namespace Recover

/-- The question gets the answer `a` if it is asked first. -/
def Fresh {α : Type} (q : Recover α) (a : α) : Prop :=
  ∃ after, q .initial = .ok a after

theorem Fresh.unique {α : Type} {q : Recover α} {a b : α} (first : Fresh q a) (second : Fresh q b) :
    a = b := by
  obtain ⟨_, one⟩ := first
  obtain ⟨_, other⟩ := second
  cases one.symm.trans other
  rfl

variable {α : Type} {S : Knowledge → Prop} {F : Fault → Prop} {P : α → Prop}
  {find : Knowledge → Option α} {keep : α → Knowledge → Knowledge} {q : Recover α}

/-- A run ends as the question `q` would end if it were asked first.  `S` is what holds of the
    states of knowledge, `F` of the faults and `P` of the answers. -/
def EndsAsFirst (S : Knowledge → Prop) (F : Fault → Prop) (P : α → Prop) (q : Recover α)
    (result : EStateM.Result Fault Knowledge α) : Prop :=
  (∃ a after, result = .ok a after ∧ Fresh q a ∧ P a ∧ S after) ∨
  ∃ fault after, result = .error fault after ∧ (∃ before, q .initial = .error fault before) ∧
    F fault ∧ S after

/-- Two such runs end alike. -/
theorem EndsAsFirst.alike {result result' : EStateM.Result Fault Knowledge α}
    (one : EndsAsFirst S F P q result) (other : EndsAsFirst S F P q result') :
    EndAlike (.invariant S F) P result result' := by
  rcases one with
    ⟨a, l, rfl, ⟨_, first⟩, holds, after⟩ | ⟨fault, l, rfl, ⟨_, first⟩, allowed, after⟩
  · rcases other with ⟨b, l', rfl, ⟨_, second⟩, _, after'⟩ | ⟨_, l', _, ⟨_, second⟩, _, _⟩
    · cases first.symm.trans second
      exact .ok holds ⟨after, after'⟩
    · cases first.symm.trans second
  · rcases other with ⟨b, l', _, ⟨_, second⟩, _, _⟩ | ⟨_, l', rfl, ⟨_, second⟩, _, after'⟩
    · cases first.symm.trans second
    · cases first.symm.trans second
      exact .error allowed ⟨after, after'⟩

/-- What is known of the answer that a first question would get may be added. -/
theorem EndsAsFirst.mono {Q : α → Prop} {result : EStateM.Result Fault Knowledge α}
    (ends : EndsAsFirst S F P q result) (more : ∀ a, Fresh q a → P a → Q a) :
    EndsAsFirst S F Q q result := by
  rcases ends with ⟨a, after, answered, first, holds, still⟩ | stopped
  · exact .inl ⟨a, after, answered, first, more a first holds, still⟩
  · exact .inr stopped

/-- An answer is the one that a first question would get. -/
theorem EndsAsFirst.of_ok {a : α} {after : Knowledge}
    (ends : EndsAsFirst S F P q (.ok a after)) : Fresh q a ∧ P a ∧ S after := by
  rcases ends with ⟨_, _, same, good⟩ | ⟨_, _, stopped, _⟩
  · cases same
    exact good
  · cases stopped

/-- A question that is answered alike from all states ends as if it were asked first. -/
theorem endsAsFirst_of_alike (initial : S .initial) (alike : Alike (.invariant S F) P q q)
    {k : Knowledge} (sound : S k) : EndsAsFirst S F P q (q k) := by
  rcases (alike .initial k ⟨initial, sound⟩).cases with
    ⟨a, l, l', first, hq, holds, _, after⟩ | ⟨fault, l, l', first, hq, allowed, _, after⟩
  · exact .inl ⟨a, l', hq, ⟨l, first⟩, holds, after⟩
  · exact .inr ⟨fault, l', hq, ⟨l, first⟩, allowed, after⟩

/-- A run of a question that is remembered ends as the question itself would have ended if it had
    been asked first. -/
theorem remember_spec (initial : S .initial) (alike : Alike (.invariant S F) P q q)
    (sure : ∀ {k a}, S k → find k = some a → Fresh q a)
    (kept : ∀ {k a}, S k → Fresh q a → S (keep a k)) {k : Knowledge} (sound : S k) :
    EndsAsFirst S F P q (remember find keep q k) := by
  rw [remember, get_bind]
  cases found : find k with
  | some a =>
    -- A kept answer is the first answer; that it satisfies `P` is seen by asking first.
    obtain ⟨after, first⟩ := sure sound found
    rcases (alike .initial .initial ⟨initial, initial⟩).cases with
      ⟨b, l, _, hq, _, holds, _⟩ | ⟨fault, l, _, hq, _⟩
    · rw [first] at hq
      cases hq
      exact .inl ⟨a, k, rfl, ⟨_, first⟩, holds, sound⟩
    · rw [first] at hq
      cases hq
  | none =>
    -- The question is asked now and ends as it would have ended first.
    rcases endsAsFirst_of_alike initial alike sound with
      ⟨a, l, hq, first, holds, after⟩ | ⟨fault, l, hq, first, allowed, after⟩
    · exact .inl ⟨a, keep a l, bind_ok hq, first, holds, kept after first⟩
    · exact .inr ⟨fault, l, bind_error hq, first, allowed, after⟩

/-- Questions that are remembered are answered alike. -/
theorem remember_alike (initial : S .initial) (alike : Alike (.invariant S F) P q q)
    (sure : ∀ {k a}, S k → find k = some a → Fresh q a)
    (kept : ∀ {k a}, S k → Fresh q a → S (keep a k)) :
    Alike (.invariant S F) P (remember find keep q) (remember find keep q) := by
  rintro k k' ⟨sound, sound'⟩
  exact (remember_spec initial alike sure kept sound).alike
    (remember_spec initial alike sure kept sound')

end Recover

/-! ### The invariant -/

/-- The bases that are kept are those that a first question would get, the direct ones and the
    virtual ones. -/
def Context.SoundBases (ctx : Context) (known : Knowledge) : Prop :=
  (∀ ⦃t bases⦄, ctx.Identified t → known.bases[t.address]? = some bases →
    Fresh (t.readBases ctx) bases) ∧
  ∀ ⦃t classes⦄, ctx.Identified t → known.virtualBases[t.address]? = some classes →
    Fresh (t.collectVirtualBases ctx) classes

/-- The names that are kept are those that a first question would get. -/
def Context.SoundNames (ctx : Context) (names : NameCells) : Prop :=
  ∀ ⦃t form name⦄, ctx.Identified t → names.find t.address form = some name →
    Fresh (t.readName ctx form) name

/-- Every answer that is kept is the one that a first question would get. -/
structure Context.Sound (ctx : Context) (detector : Option Detector) (known : Knowledge) :
    Prop where
  /-- Marks are names of classes. -/
  marks : ctx.SoundMarks known.marks
  /-- Names. -/
  names : ctx.SoundNames known.names
  /-- Direct bases and virtual bases. -/
  bases : ctx.SoundBases known
  /-- Vtables. -/
  vtables : ∀ {t v}, ctx.Identified t → known.vtables[t.address]? = some v →
    Fresh (t.locateVtable ctx) v
  /-- Tables of vtables. -/
  vtts : ∀ {t vtt}, ctx.Identified t → known.vtts[t.address]? = some vtt →
    Fresh (t.vtable ctx >>= t.locateVtt ctx) vtt
  /-- Stores of functions. -/
  stores : ∀ d ∈ detector, ctx.SoundStores d known.stores

namespace Context

variable {ctx : Context} {detector : Option Detector}

theorem soundBases_initial : ctx.SoundBases .initial := by
  constructor
  · intro t bases _ kept
    cases kept
  · intro t classes _ kept
    cases kept

theorem sound_initial : ctx.Sound detector .initial where
  marks := List.forall_mem_nil _
  names _ form _ _ kept := by cases form <;> cases kept
  bases := soundBases_initial
  vtables _ kept := by cases kept
  vtts _ kept := by cases kept
  stores d _ := ctx.soundStores_initial d

/-- Other stores that are right leave knowledge sound. -/
theorem Sound.withStores {known : Knowledge} (sound : ctx.Sound detector known) {d : Detector}
    (given : d ∈ detector) {book : StoreBook} (right : ctx.SoundStores d book) :
    ctx.Sound detector { known with stores := book } :=
  { sound with stores := fun _ also => Option.mem_unique given also ▸ right }

/-! ### Cells -/

/-- Only one class is recognised at an address. -/
theorem Identified.eq_of_address {s t : TypeInfo} (first : ctx.Identified s)
    (second : ctx.Identified t) (same : s.address = t.address) : s = t := by
  rw [Identified, same, second] at first
  exact (Option.some.inj (Except.ok.inj first)).symm

/-- A right answer that is kept for one class leaves the answers for all classes right. -/
theorem forall_insert_address {β : Type} {cells : Std.TreeMap Int β} {Right : TypeInfo → β → Prop}
    (sound : ∀ ⦃t c⦄, ctx.Identified t → cells[t.address]? = some c → Right t c) {s : TypeInfo}
    (identified : ctx.Identified s) {b : β} (right : Right s b) :
    ∀ ⦃t c⦄, ctx.Identified t → (cells.insert s.address b)[t.address]? = some c → Right t c := by
  intro t c found kept
  rw [Std.TreeMap.getElem?_insert] at kept
  split at kept
  · next same =>
    cases Option.some.inj kept
    exact identified.eq_of_address found (Std.compare_eq_iff_eq.mp same) ▸ right
  · exact sound found kept

/-- Right direct bases that are kept leave all bases right. -/
theorem SoundBases.insertDirect {known : Knowledge} (sound : ctx.SoundBases known) {t : TypeInfo}
    (identified : ctx.Identified t) {bases : List Base} (fresh : Fresh (t.readBases ctx) bases) :
    ctx.SoundBases { known with bases := known.bases.insert t.address bases } :=
  ⟨forall_insert_address sound.1 identified fresh, sound.2⟩

/-- So do right virtual bases. -/
theorem SoundBases.insertVirtual {known : Knowledge} (sound : ctx.SoundBases known) {t : TypeInfo}
    (identified : ctx.Identified t) {classes : List TypeInfo}
    (fresh : Fresh (t.collectVirtualBases ctx) classes) :
    ctx.SoundBases { known with virtualBases := known.virtualBases.insert t.address classes } :=
  ⟨sound.1, forall_insert_address sound.2 identified fresh⟩

/-- A right name that is kept leaves all names right. -/
theorem SoundNames.insert {names : NameCells} (sound : ctx.SoundNames names) {s : TypeInfo}
    {form : NameForm} {name : String} (identified : ctx.Identified s)
    (fresh : Fresh (s.readName ctx form) name) :
    ctx.SoundNames (names.insert s.address name form) := by
  intro t other called found kept
  rw [NameCells.find_insert] at kept
  split at kept
  · next here =>
    obtain ⟨rfl, address⟩ := here
    cases Option.some.inj kept
    exact identified.eq_of_address found address ▸ fresh
  · exact sound found kept

theorem identified_of_identify {address : Int} {t : TypeInfo}
    (found : ctx.roots.identify ctx.image address = .ok (some t)) : ctx.Identified t := by
  rw [Identified, Roots.address_of_identify found]
  exact found

/-- A program is read alike from any two states in which `S` holds, if `S` does not depend on the
    classes met. -/
theorem reading (ctx : Context) {S : Knowledge → Prop} {F : Fault → Prop}
    (tolerates : ctx.Tolerates F) (meet : ∀ {k : Knowledge} (t : TypeInfo), S k → S (k.meet t)) :
    Reading ctx ctx.image.relocations (.invariant S F) ctx.Identified where
  reads := ctx.readsAlike_self
  tolerates := tolerates
  good found := identified_of_identify found
  meet _ sound := ⟨meet _ sound.1, meet _ sound.2⟩

/-- A sound state stays sound when a class is met. -/
theorem Sound.meet {known : Knowledge} (sound : ctx.Sound detector known) (t : TypeInfo) :
    ctx.Sound detector (known.meet t) :=
  { sound with }

variable (detector) in
/-- Names are read alike from any two sound states. -/
theorem typeNameAt_alike {F : Fault → Prop} (apart : ctx.NamesApart) (tolerates : ctx.Tolerates F)
    {t : TypeInfo} (identified : ctx.Identified t) :
    Alike (.invariant (ctx.Sound detector) F) Any (typeNameAt ctx t.address)
      (typeNameAt ctx t.address) := by
  rintro k k' ⟨sound, sound'⟩
  obtain ⟨marks, still, read⟩ := typeNameAt_eq_lift apart identified sound.marks
  obtain ⟨marks', still', read'⟩ := typeNameAt_eq_lift apart identified sound'.marks
  have only : OnlyFaults F (ctx.image.nameAt t.address) := by
    refine (tolerates.resolve _).bind fun value => ?_
    cases value with
    | none => exact .ok ""
    | some place => exact .ok _
  rw [read, read']
  exact Alike.liftAny only _ _ ⟨{ sound with marks := still }, { sound' with marks := still' }⟩

/-- A name that is asked for in a sound state is the one that a first question would get. -/
theorem Sound.rememberName {F : Fault → Prop} {t : TypeInfo} {form : NameForm}
    (identified : ctx.Identified t)
    (alike : Alike (.invariant (ctx.Sound detector) F) Any (t.readName ctx form)
      (t.readName ctx form)) {known : Knowledge} (sound : ctx.Sound detector known) :
    EndsAsFirst (ctx.Sound detector) F Any (t.readName ctx form) (t.nameAs ctx form known) := by
  refine remember_spec sound_initial alike (fun sound kept => sound.names identified kept) ?_ sound
  intro k name sound fresh
  exact { sound with names := sound.names.insert identified fresh }

variable (detector) in
/-- Names are found alike from any two sound states. -/
theorem soundNaming {F : Fault → Prop} (apart : ctx.NamesApart) (tolerates : ctx.Tolerates F) :
    Naming ctx ctx.image.relocations (.invariant (ctx.Sound detector) F) ctx.Identified where
  toReading := ctx.reading tolerates fun t sound => sound.meet t
  typeNameAt := typeNameAt_alike detector apart tolerates
  nameCell form identified alike := by
    rintro k k' ⟨sound, sound'⟩
    exact (sound.rememberName identified alike).alike (sound'.rememberName identified alike)
  nameOf {t} identified := by
    have alike := typeNameAt_alike detector apart tolerates identified
    -- Whether the class was met or not, its name is the one that a first question would get.
    have first : ∀ {k}, ctx.Sound detector k →
        EndsAsFirst (ctx.Sound detector) F Any (typeNameAt ctx t.address) (nameOf ctx t k) := by
      intro k sound
      rw [nameOf, get_bind]
      split
      · exact sound.rememberName identified (by exact alike)
      · exact endsAsFirst_of_alike sound_initial alike sound
    rintro k k' ⟨sound, sound'⟩
    exact (first sound).alike (first sound')

variable (detector) in
/-- Base graphs are walked alike from any two sound states. -/
theorem soundLocating {F : Fault → Prop} (apart : ctx.NamesApart) (tolerates : ctx.Tolerates F)
    (malformed : ∀ what, F (.malformed what)) :
    Locating ctx ctx.image.relocations (.invariant (ctx.Sound detector) F) ctx.Identified
      ctx.Identified where
  toNaming := soundNaming detector apart tolerates
  toFollowing := (soundNaming detector apart tolerates).following malformed
    fun {t} identified alike => by
      show Alike _ _ (t.bases ctx) (t.bases ctx)
      rw [TypeInfo.bases]
      refine remember_alike sound_initial alike (fun sound kept => sound.bases.1 identified kept) ?_
      intro k bases sound fresh
      exact { sound with bases := sound.bases.insertDirect identified fresh }
  virtualCell {t} identified alike := by
    show Alike _ _ (t.virtualBases ctx) (t.virtualBases ctx)
    rw [TypeInfo.virtualBases]
    refine remember_alike sound_initial alike (fun sound kept => sound.bases.2 identified kept) ?_
    intro k classes sound fresh
    exact { sound with bases := sound.bases.insertVirtual identified fresh }
  named identified := identified

/-- **Answers do not depend on what is known.**  From any two sound states all questions about
    classes are answered alike. -/
theorem soundSimulation {F : Fault → Prop} (apart : ctx.NamesApart) (tolerates : ctx.Tolerates F)
    (malformed : ∀ what, F (.malformed what)) (searches : F .targetRange) :
    Simulation ctx ctx.image.relocations (.invariant (ctx.Sound detector) F) ctx.Identified
      ctx.Identified (fun _ => Vtable.Found ctx.image ctx.Identified) where
  toLocating := soundLocating detector apart tolerates malformed
  again _ found := identified_of_identify found
  -- The answer for a class is kept for its address only.
  vtable {t} identified := by
    have alike := (soundLocating detector apart tolerates malformed).locateVtable
      identified (.inl searches)
    show Alike _ _ (t.vtable ctx) (t.vtable ctx)
    rw [TypeInfo.vtable]
    refine remember_alike sound_initial alike (fun sound kept => sound.vtables identified kept) ?_
    intro k v sound fresh
    have cells :=
      forall_insert_address (fun _ _ found kept => sound.vtables found kept) identified fresh
    exact { sound with vtables := fun found kept => cells found kept }
  serves _ found := found.serves
  searchable _ _ _ _ := .inl searches
  vttCell {t} identified alike := by
    show Alike _ _ (t.vtt ctx) (t.vtt ctx)
    rw [TypeInfo.vtt]
    refine remember_alike sound_initial alike (fun sound kept => sound.vtts identified kept) ?_
    intro k vtt sound fresh
    have cells :=
      forall_insert_address (fun _ _ found kept => sound.vtts found kept) identified fresh
    exact { sound with vtts := fun found kept => cells found kept }

/-- Stores are found alike from any two sound states. -/
theorem soundReports {F : Fault → Prop} (apart : ctx.NamesApart) (tolerates : ctx.Tolerates F)
    (malformed : ∀ what, F (.malformed what)) (searches : F .targetRange)
    (running : ctx.cancelled = false) (answers : ∀ d ∈ detector, ctx.Answers d) :
    ReportSimulation ctx ctx.image.relocations (.invariant (ctx.Sound detector) F) ctx.Identified
      ctx.Identified (fun _ => Vtable.Found ctx.image ctx.Identified) (· ∈ ctx.image.functions)
      detector where
  toSimulation := soundSimulation apart tolerates malformed searches
  storesOf d given f member := by
    rintro k k' ⟨sound, sound'⟩
    obtain ⟨book, right, found⟩ :=
      storesOf_spec running (answers d given) (sound.stores d given) member
    obtain ⟨book', right', found'⟩ :=
      storesOf_spec running (answers d given) (sound'.stores d given) member
    -- Both books are sound, so both have what the detector finds.
    show EndAlike _ Any (storesOf ctx d f k) (storesOf ctx d f k')
    rw [found, found']
    exact .ok trivial ⟨sound.withStores given right, sound'.withStores given right'⟩
  functionsStoring d given values := by
    rintro k k' ⟨sound, sound'⟩
    obtain ⟨book, right, found⟩ :=
      functionsStoring_spec running (answers d given) (sound.stores d given) values
    obtain ⟨book', right', found'⟩ :=
      functionsStoring_spec running (answers d given) (sound'.stores d given) values
    show EndAlike _ _ (functionsStoring ctx d values k) (functionsStoring ctx d values k')
    rw [found, found']
    exact .ok (fun f member => List.mem_of_mem_filter member)
      ⟨sound.withStores given right, sound'.withStores given right'⟩

end Context

end ItaniumRtti
