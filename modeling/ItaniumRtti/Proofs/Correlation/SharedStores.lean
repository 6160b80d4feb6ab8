import ItaniumRtti.Proofs.StoreIndex

namespace ItaniumRtti

/-!
# Correlations that share their stores

Correlations of different classes may share a book of stores, so that no function is examined twice.
Some of them may be interrupted.

* `StoreBook.Faithful` — a book with what the detector gives, and with nothing that was asked twice;
* `Recover.Follows` — a question is answered like another one, or is stopped on the way;
* `Context.consulting_stores` — what is asked besides stores does not depend on the book;
* `TypeInfo.assign_follows`, `TypeInfo.correlate_follows` — a correlation follows the one that has
  another faithful book;
* `Inquiry` — a call, `bookAfter` — the book that a sequence of calls leaves;
* `Inquiry.shared_stores_transparent` — so each call of a sequence is answered as if it had a book
  of its own.
-/

open Recover

/-! ### Books -/

/-- A detector that finds stores with `finds`, but is interrupted before some functions. -/
def Detector.interrupted (finds : Function → List VptrStore) (stops : Function → Bool) : Detector :=
  fun f => if stops f then .error .cancelled else .ok (finds f)

/-- In the pool equal addresses mean equal functions. -/
def ToldByAddress (pool : List Function) : Prop :=
  ∀ f ∈ pool, ∀ g ∈ pool, f.address = g.address → f = g

/-- A book that was filled with what `finds` gives for functions of a pool. -/
structure StoreBook.Faithful (finds : Function → List VptrStore) (pool : List Function)
    (book : StoreBook) : Prop where
  /-- What is listed at an address are the stores that a function there makes into its object. -/
  found : ∀ {address : Int} {stores}, book.found[address]? = some stores →
    ∃ f ∈ pool, f.address = address ∧ stores = (finds f).filter (·.onThis)
  /-- The detector was asked about the functions that are listed, even those without stores. -/
  asked : ∀ address : Int, address ∈ book.asked ↔ book.found[address]?.isSome = true
  /-- It was asked about each of them once. -/
  once : book.asked.Nodup

namespace StoreBook.Faithful

variable {finds : Function → List VptrStore} {pool : List Function} {book : StoreBook}

/-- An empty book is faithful. -/
theorem empty (finds : Function → List VptrStore) (pool : List Function) :
    StoreBook.Faithful finds pool {} where
  found kept := by cases kept
  asked address := by simp
  once := List.nodup_nil

/-- Functions may be added to the pool. -/
theorem mono (faithful : book.Faithful finds pool) {more : List Function}
    (larger : ∀ f ∈ pool, f ∈ more) : book.Faithful finds more where
  found kept := by
    obtain ⟨f, member, rest⟩ := faithful.found kept
    exact ⟨f, larger f member, rest⟩
  asked := faithful.asked
  once := faithful.once

/-- A function that is not listed yet may be recorded. -/
theorem record (faithful : book.Faithful finds pool) {f : Function} (member : f ∈ pool)
    (new : book.found[f.address]? = none) :
    ((book.note f).enter f (finds f)).Faithful finds pool where
  found {address stores} kept := by
    replace kept : (book.found.insert f.address ((finds f).filter (·.onThis)))[address]? =
      some stores := kept
    rw [Std.TreeMap.getElem?_insert] at kept
    split at kept
    · next here => exact ⟨f, member, Std.compare_eq_iff_eq.mp here, (Option.some.inj kept).symm⟩
    · exact faithful.found kept
  asked address := by
    show address ∈ book.asked ++ [f.address] ↔
      (book.found.insert f.address ((finds f).filter (·.onThis)))[address]?.isSome = true
    rw [List.mem_append, List.mem_singleton, Std.TreeMap.getElem?_insert, faithful.asked]
    by_cases here : f.address = address
    · rw [if_pos (Std.compare_eq_iff_eq.mpr here)]
      exact ⟨fun _ => rfl, fun _ => .inr here.symm⟩
    · rw [if_neg fun same => here (Std.compare_eq_iff_eq.mp same)]
      exact ⟨fun either => either.resolve_right fun same => here same.symm, .inl⟩
  once := by
    show (book.asked ++ [f.address]).Nodup
    -- it would be listed if the detector had been asked about it
    have unasked : f.address ∉ book.asked := by
      rw [faithful.asked, new]
      exact Bool.false_ne_true
    rw [List.nodup_append]
    refine ⟨faithful.once, List.nodup_singleton _, fun a asked b here same => unasked ?_⟩
    rw [← List.mem_singleton.mp here, ← same]
    exact asked

/-- What is listed for a function of the pool are its own stores. -/
theorem stores_eq (faithful : book.Faithful finds pool)
    (told : ToldByAddress pool) {f : Function} (member : f ∈ pool) {stores : List VptrStore}
    (kept : book.found[f.address]? = some stores) : stores = (finds f).filter (·.onThis) := by
  obtain ⟨g, other, address, stored⟩ := faithful.found kept
  rw [told f member g other address.symm]
  exact stored

end StoreBook.Faithful

/-- A property of faithful books that new functions do not break. -/
structure StoreBook.Lasts (finds : Function → List VptrStore) (pool : List Function)
    (B : StoreBook → Prop) : Prop where
  /-- The books are faithful. -/
  faithful : ∀ {book}, B book → book.Faithful finds pool
  /-- A function that is not listed yet may be recorded. -/
  record : ∀ {book : StoreBook} {f : Function}, B book → f ∈ pool →
    book.found[f.address]? = none → B ((book.note f).enter f (finds f))

/-- Faithfulness itself is such a property. -/
theorem StoreBook.lasts_faithful (finds : Function → List VptrStore) (pool : List Function) :
    StoreBook.Lasts finds pool (·.Faithful finds pool) where
  faithful := id
  record faithful := faithful.record

/-- What the detector was asked before stays on record. -/
theorem StoreBook.lasts_asked (finds : Function → List VptrStore) (pool : List Function)
    (before : List Int) :
    StoreBook.Lasts finds pool fun book => book.Faithful finds pool ∧ before <+: book.asked where
  faithful both := both.1
  record both member new :=
    ⟨both.1.record member new, both.2.trans (List.prefix_append _ _)⟩

/-! ### Questions that are stopped on the way -/

namespace Recover

variable {α β : Type} {R : Link} {Stopped : Knowledge → Prop} {P : α → Prop} {q q' : Recover α}

/-- From linked states the first question ends like the second, or it is stopped on the way in a
    state of which `Stopped` holds. -/
def Follows (R : Link) (Stopped : Knowledge → Prop) (P : α → Prop) (q q' : Recover α) : Prop :=
  ∀ k k', R.states k k' →
    EndAlike R P (q k) (q' k') ∨ ∃ l, q k = .error .cancelled l ∧ Stopped l

namespace Follows

/-- Questions that are answered alike follow each other. -/
theorem of_alike (alike : Alike R P q q') : Follows R Stopped P q q' :=
  fun k k' related => .inl (alike k k' related)

theorem pure {a : α} (holds : P a) : Follows R Stopped P (pure a) (pure a) :=
  of_alike (.pure holds)

/-- Questions asked one after the other. -/
theorem bind {S : β → Prop} {f f' : α → Recover β} (first : Follows R Stopped P q q')
    (second : ∀ a, P a → Follows R Stopped S (f a) (f' a)) :
    Follows R Stopped S (q >>= f) (q' >>= f') := by
  intro k k' related
  rcases first k k' related with ends | ⟨l, stopped, early⟩
  · rcases ends.cases with
      ⟨a, l, l', hq, hq', holds, after⟩ | ⟨_, l, l', hq, hq', allowed, after⟩
    · rw [bind_ok hq, bind_ok hq']
      exact second a holds l l' after
    · rw [bind_error hq, bind_error hq']
      exact .inl (.error allowed after)
  · exact .inr ⟨l, bind_error stopped, early⟩

end Follows

end Recover

/-! ### What is asked besides stores -/

/-- Names, bases and vtables are found alike, whatever is known of them and whatever stores are. -/
theorem Context.consulting_stores (ctx : Context) (B : StoreBook → Prop) :
    Consulting ctx ctx.image.relocations (.exceptStores (fun known => B known.stores) Any) Any Any
      fun _ => Any := by
  have reading : Reading ctx ctx.image.relocations
      (.exceptStores (fun known => B known.stores) Any) Any := {
    reads := ctx.readsAlike_self
    tolerates := tolerates_any ctx
    good := fun _ => trivial
    meet := by
      rintro k k' address t - ⟨⟨book, rfl⟩, holds, holds'⟩
      exact ⟨⟨book, rfl⟩, holds, holds'⟩ }
  have following := reading.following (fun _ => trivial) fun {t} _ alike => by
    show Alike _ _ (t.bases ctx) (t.bases ctx)
    rw [TypeInfo.bases]
    exact remember_exceptStores (fun _ _ => rfl) (fun _ _ _ => rfl) (fun _ _ _ _ => trivial) alike
      fun _ _ holds _ => holds
  have locating : Locating ctx ctx.image.relocations
      (.exceptStores (fun known => B known.stores) Any) Any Any := {
    toNaming := naming_exceptStores reading (fun _ holds => holds) fun _ holds => holds
    toFollowing := following
    virtualCell := fun {t} _ alike => by
      show Alike _ _ (t.virtualBases ctx) (t.virtualBases ctx)
      rw [TypeInfo.virtualBases]
      exact remember_exceptStores (fun _ _ => rfl) (fun _ _ _ => rfl) (fun _ _ _ _ => trivial)
        alike fun _ _ holds _ => holds
    named := fun _ => trivial }
  -- The cells are the same on both sides, since the states differ in their stores alone.
  exact {
    toLocating := locating
    again := fun _ _ => trivial
    vtable := fun {t} good => by
      show Alike _ _ (t.vtable ctx) (t.vtable ctx)
      rw [TypeInfo.vtable]
      exact remember_exceptStores (fun _ _ => rfl) (fun _ _ _ => rfl) (fun _ _ => trivial)
        (locating.locateVtable good (.inl trivial)).any fun _ _ holds _ => holds
    serves := fun _ _ => Vtable.serves_any }

/-! ### Correlations -/

section

variable {ctx : Context} {finds : Function → List VptrStore} {stops : Function → Bool}
  {pool candidates : List Function} {B : StoreBook → Prop}

/-- The stores of a function are its own, whichever book is used, unless the detector is
    interrupted. -/
theorem Recover.storesOf_interrupted (running : ctx.cancelled = false) (told : ToldByAddress pool)
    (lasts : StoreBook.Lasts finds pool B) {f : Function} (member : f ∈ pool) {known : Knowledge}
    (holds : B known.stores) :
    (∃ book, B book ∧ storesOf ctx (.interrupted finds stops) f known =
      .ok ((finds f).filter (·.onThis)) { known with stores := book }) ∨
    storesOf ctx (.interrupted finds stops) f known = .error .cancelled known ∧ stops f = true := by
  unfold storesOf
  rw [get_bind]
  cases kept : known.stores.found[f.address]? with
  | some stores =>
    rw [(lasts.faithful holds).stores_eq told member kept]
    exact .inl ⟨known.stores, holds, rfl⟩
  | none =>
    dsimp only
    rw [checkCancelled_running running, pure_bind]
    -- The detector is asked only where the book has nothing, and the interruption comes before
    -- anything is entered.
    by_cases stopped : stops f = true
    · have answer : Detector.interrupted finds stops f = .error .cancelled := if_pos stopped
      exact .inr ⟨bind_error (consult_error known answer), stopped⟩
    · have answer : Detector.interrupted finds stops f = .ok (finds f) := if_neg stopped
      rw [bind_ok (consult_ok known answer)]
      exact .inl ⟨_, lasts.record holds member kept, rfl⟩

variable (stops) (candidates) in
/-- A correlation was interrupted before one of its candidates. -/
def Recover.Interrupted (B : StoreBook → Prop) (known : Knowledge) : Prop :=
  B known.stores ∧ ∃ f ∈ candidates, stops f = true

variable (told : ToldByAddress pool) (lasts : StoreBook.Lasts finds pool B)
  (part : ∀ f ∈ candidates, f ∈ pool)
include told lasts part

/-- A candidate is examined like without interruptions.  If the whole analysis is stopped, both
    notice it before they look into their books. -/
theorem Recover.storesOf_follows {f : Function} (member : f ∈ candidates) :
    Follows (.exceptStores (fun known => B known.stores) Any) (Interrupted stops candidates B) Any
      (checkCancelled ctx >>= fun _ => storesOf ctx (.interrupted finds stops) f)
      (checkCancelled ctx >>= fun _ => storesOf ctx (.interrupted finds fun _ => false) f) := by
  rintro k _ ⟨⟨book, rfl⟩, holds, holds'⟩
  cases stopped : ctx.cancelled with
  | true =>
    have check : ∀ known, checkCancelled ctx known = .error .cancelled known := by
      intro known
      rw [checkCancelled, if_pos stopped]
      rfl
    rw [bind_error (check _), bind_error (check _)]
    exact .inl (.error trivial ⟨⟨book, rfl⟩, holds, holds'⟩)
  | false =>
    rw [checkCancelled_running stopped, pure_bind, pure_bind]
    have second := @storesOf_interrupted ctx finds (fun _ => false) pool B stopped told lasts f
      (part f member) { k with stores := book } holds'
    obtain ⟨after', still', answer'⟩ := second.resolve_right fun never => Bool.false_ne_true never.2
    rw [answer']
    -- The second run is never interrupted; the first is, or finds the same.
    rcases storesOf_interrupted stopped told lasts (part f member) holds with
      ⟨after, still, answer⟩ | ⟨early, stop⟩
    · rw [answer]
      exact .inl (.ok trivial ⟨⟨after', rfl⟩, still, still'⟩)
    · exact .inr ⟨k, early, holds, f, member, stop⟩

namespace TypeInfo

/-- **The functions of a class** are found like with another book, by induction on those that are
    left to be examined. -/
theorem assign_follows (t : TypeInfo) (v : Vtable) (entries points : List Int)
    {among : List Function} (left : ∀ f ∈ among, f ∈ candidates) :
    Follows (.exceptStores (fun known => B known.stores) Any) (Interrupted stops candidates B) Any
      (t.assign ctx v entries points (.interrupted finds stops) among)
      (t.assign ctx v entries points (.interrupted finds fun _ => false) among) := by
  have sim := ctx.consulting_stores B
  induction among with
  | nil => exact .pure trivial
  | cons f rest ih =>
    obtain ⟨first, others⟩ := List.forall_mem_cons.mp left
    rw [assign, assign, ← bind_assoc, ← bind_assoc]
    refine (storesOf_follows told lasts part first).bind fun stores _ => ?_
    split
    · exact ih others
    · -- What is done with the stores looks into no book.
      have attributed : Alike _ _ (t.attributeStores ctx v entries points stores)
          (t.attributeStores ctx v entries points stores) :=
        sim.attributeStores trivial Vtable.serves_any entries points stores
      have named : Alike _ _ (t.name ctx) (t.name ctx) := sim.name (t := t) trivial
      refine (Follows.of_alike attributed).bind fun result _ => ?_
      refine (Follows.of_alike named).bind fun name _ => ?_
      exact (ih others).bind fun more _ => .pure trivial

/-- So are the functions of an ancestor. -/
theorem assignPrimary_follows (t : TypeInfo) {among : List Function}
    (left : ∀ f ∈ among, f ∈ candidates) :
    Follows (.exceptStores (fun known => B known.stores) Any) (Interrupted stops candidates B) Any
      (t.assignPrimary ctx (.interrupted finds stops) among)
      (t.assignPrimary ctx (.interrupted finds fun _ => false) among) := by
  have vtable : Alike _ _ (t.vtable ctx) (t.vtable ctx) :=
    (ctx.consulting_stores B).vtable (t := t) trivial
  rw [assignPrimary, assignPrimary]
  refine (Follows.of_alike vtable).bind fun v _ => ?_
  cases v.primary? with
  | none => exact .pure trivial
  | some primary =>
    refine (assign_follows told lasts part t v [] [primary.addressPoint] left).bind fun _ _ => ?_
    exact .pure trivial

end TypeInfo

/-- The base classes that a table of vtables names share the candidates that are left. -/
theorem Recover.assignEach_follows (classes : List TypeInfo) {among : List Function}
    (left : ∀ f ∈ among, f ∈ candidates) :
    Follows (.exceptStores (fun known => B known.stores) Any) (Interrupted stops candidates B) Any
      (assignEach ctx (.interrupted finds stops) classes among)
      (assignEach ctx (.interrupted finds fun _ => false) classes among) := by
  induction classes generalizing among with
  | nil => exact .pure trivial
  | cons t rest ih =>
    rw [assignEach, assignEach]
    refine (t.assignPrimary_follows told lasts part left).bind fun assignments _ => ?_
    refine (ih fun f member => ?_).bind fun _ _ => .pure trivial
    exact left f (List.mem_of_mem_filter member)

variable (ctx stops) in
/-- **A correlation** ends like one that has another book and is not interrupted, or it is
    interrupted. -/
theorem TypeInfo.correlate_follows (t : TypeInfo) (v : Vtable) (vtt : Option Vtt) :
    Follows (.exceptStores (fun known => B known.stores) Any) (Interrupted stops candidates B) Any
      (t.correlate ctx v vtt candidates (.interrupted finds stops))
      (t.correlate ctx v vtt candidates (.interrupted finds fun _ => false)) := by
  rw [correlate, correlate]
  cases v.primary? with
  | none => exact .pure trivial
  | some primary =>
    dsimp only
    refine (assign_follows told lasts part t v _ _ fun f member => member).bind fun result _ => ?_
    refine (assignEach_follows told lasts part _ fun f member => ?_).bind fun _ _ => .pure trivial
    exact List.mem_of_mem_filter member

end

/-! ### Sequences of calls -/

/-- A call that asks for the constructors and destructors of a class. -/
structure Inquiry where
  /-- What is asked about. -/
  context : Context
  /-- What is known when the call begins; its stores are not used. -/
  known : Knowledge
  /-- The class. -/
  owner : TypeInfo
  /-- Its vtable. -/
  vtable : Vtable
  /-- Its table of vtables. -/
  vtt : Option Vtt
  /-- The functions that are looked at. -/
  candidates : List Function
  /-- The functions before whose examination the call is interrupted. -/
  stops : Function → Bool := fun _ => false

/-- The state in which a run ends. -/
def Recover.stateAfter {α : Type} : EStateM.Result Fault Knowledge α → Knowledge
  | .ok _ after => after
  | .error _ after => after

namespace Inquiry

/-- What a call asks. -/
def question (finds : Function → List VptrStore) (stops : Function → Bool) (q : Inquiry) :
    Recover (List Assignment) :=
  q.owner.correlate q.context q.vtable q.vtt q.candidates (.interrupted finds stops)

/-- The call with a book that is shared. -/
def run (finds : Function → List VptrStore) (q : Inquiry) (book : StoreBook) :
    EStateM.Result Fault Knowledge (List Assignment) :=
  q.question finds q.stops { q.known with stores := book }

/-- The call with a book of its own, and without interruptions. -/
def alone (finds : Function → List VptrStore) (q : Inquiry) :
    EStateM.Result Fault Knowledge (List Assignment) :=
  Session.withOwnStores (q.question finds fun _ => false) q.known

/-- The book that a call leaves behind, completed or not. -/
def leave (finds : Function → List VptrStore) (book : StoreBook) (q : Inquiry) : StoreBook :=
  (stateAfter (q.run finds book)).stores

/-- The book after calls that share it; it is empty at first. -/
def bookAfter (finds : Function → List VptrStore) (inquiries : List Inquiry) : StoreBook :=
  inquiries.foldl (leave finds) {}

/-- How a call ends that shares its book: as it would by itself, or interrupted. -/
def EndsAsAlone (finds : Function → List VptrStore) (q : Inquiry) (book : StoreBook) : Prop :=
  (∃ found after, q.run finds book = .ok found after ∧
    q.alone finds = .ok found { after with stores := q.known.stores }) ∨
  (∃ fault after, q.run finds book = .error fault after ∧
    q.alone finds = .error fault { after with stores := q.known.stores }) ∨
  ∃ after, q.run finds book = .error .cancelled after ∧ ∃ f ∈ q.candidates, q.stops f = true

variable {finds : Function → List VptrStore} {pool : List Function} {book : StoreBook} {q : Inquiry}

section

variable (told : ToldByAddress pool) (part : ∀ f ∈ q.candidates, f ∈ pool)
include told part

/-- A call with a faithful book ends as it would with a book of its own, unless it is interrupted.
    -/
theorem endsAsAlone (faithful : book.Faithful finds pool) : q.EndsAsAlone finds book := by
  have follows := TypeInfo.correlate_follows q.context q.stops told
    (StoreBook.lasts_faithful finds pool) part q.owner q.vtable q.vtt
  -- The two runs start in states that differ in their books alone.
  rcases follows { q.known with stores := book } { q.known with stores := {} }
    ⟨⟨{}, rfl⟩, faithful, .empty finds pool⟩ with ends | ⟨after, stopped, -, early⟩
  · rcases ends.cases with
      ⟨found, after, _, here, there, -, ⟨other, rfl⟩, -⟩ |
      ⟨fault, after, _, here, there, -, ⟨other, rfl⟩, -⟩
    · refine .inl ⟨found, after, here, ?_⟩
      rw [alone, Session.withOwnStores, question, there]
    · refine .inr (.inl ⟨fault, after, here, ?_⟩)
      rw [alone, Session.withOwnStores, question, there]
  · exact .inr (.inr ⟨after, stopped, early⟩)

/-- What holds of the book before a call holds of it afterwards. -/
theorem leave_lasts {B : StoreBook → Prop} (lasts : StoreBook.Lasts finds pool B) (holds : B book) :
    B (leave finds book q) := by
  have follows := TypeInfo.correlate_follows q.context q.stops told lasts part q.owner q.vtable
    q.vtt
  -- Both runs start in the same state here, and only the state that the first leaves matters,
  -- whichever way it ends.
  have related : (Link.exceptStores (fun known => B known.stores) Any).states
      { q.known with stores := book } { q.known with stores := book } :=
    Link.exceptStores_refl holds
  unfold leave run question
  rcases follows _ _ related with ends | ⟨after, stopped, still, -⟩
  · rcases ends.cases with
      ⟨found, after, _, here, -, -, -, still, -⟩ | ⟨fault, after, _, here, -, -, -, still, -⟩
    · rw [here]
      exact still
    · rw [here]
      exact still
  · rw [stopped]
    exact still

end

/-- What holds of a book holds of it after any number of calls. -/
theorem foldl_leave_lasts (told : ToldByAddress pool) {B : StoreBook → Prop}
    (lasts : StoreBook.Lasts finds pool B) (holds : B book) {inquiries : List Inquiry}
    (part : ∀ q ∈ inquiries, ∀ f ∈ q.candidates, f ∈ pool) :
    B (inquiries.foldl (leave finds) book) := by
  induction inquiries generalizing book with
  | nil => exact holds
  | cons q rest ih =>
    obtain ⟨first, others⟩ := List.forall_mem_cons.mp part
    exact ih (leave_lasts told first lasts holds) others

/-- The candidates of a call belong to the pool of all calls. -/
theorem mem_candidates {inquiries : List Inquiry} (member : q ∈ inquiries) {f : Function}
    (candidate : f ∈ q.candidates) : f ∈ inquiries.flatMap (·.candidates) :=
  List.mem_flatMap.mpr ⟨q, member, candidate⟩

/-- Candidates of the first calls are candidates of all. -/
theorem candidates_subset {before inquiries : List Inquiry} (early : before <+: inquiries) :
    ∀ f ∈ before.flatMap (·.candidates), f ∈ inquiries.flatMap (·.candidates) := by
  intro f member
  obtain ⟨q, called, candidate⟩ := List.mem_flatMap.mp member
  exact mem_candidates (early.subset called) candidate

variable (finds) in
/-- The book is faithful to the calls made so far. -/
theorem bookAfter_faithful {before inquiries : List Inquiry}
    (told : ToldByAddress (inquiries.flatMap (·.candidates))) (early : before <+: inquiries) :
    (bookAfter finds before).Faithful finds (before.flatMap (·.candidates)) := by
  refine foldl_leave_lasts (fun f member g other => ?_) (StoreBook.lasts_faithful finds _)
    (.empty finds _) fun q called f candidate => mem_candidates called candidate
  exact told f (candidates_subset early f member) g (candidates_subset early g other)

/-- **A shared book is transparent.**  In every sequence of calls that begins with an empty book,
    and in which equal addresses mean equal functions, each call ends as it would with a book of its
    own, unless it is interrupted.  At every time the book holds the stores that the detector gives
    for functions asked about so far: between two calls, and in the middle of one, wherever that may
    be interrupted.  Over the whole sequence the detector is asked about no function twice. -/
theorem shared_stores_transparent (finds : Function → List VptrStore) (inquiries : List Inquiry)
    (told : ToldByAddress (inquiries.flatMap (·.candidates))) :
    (∀ before, before <+: inquiries →
      (bookAfter finds before).Faithful finds (before.flatMap (·.candidates)) ∧
      (bookAfter finds before).asked <+: (bookAfter finds inquiries).asked) ∧
    ∀ before q rest, inquiries = before ++ q :: rest →
      q.EndsAsAlone finds (bookAfter finds before) ∧
      ∀ stops, (leave finds (bookAfter finds before) { q with stops := stops }).Faithful finds
        ((before ++ [q]).flatMap (·.candidates)) := by
  refine ⟨fun before early => ⟨bookAfter_faithful finds told early, ?asked⟩,
    fun before q rest split => ?_⟩
  case asked =>
    obtain ⟨rest, rfl⟩ := early
    have still := (bookAfter_faithful finds told (List.prefix_append before rest)).mono
      (candidates_subset (List.prefix_append before rest))
    -- what was asked before stays on record while the other calls are made
    have grown := foldl_leave_lasts told (StoreBook.lasts_asked finds _ _)
      ⟨still, List.prefix_refl _⟩ fun q called f candidate =>
        mem_candidates (List.mem_append_right before called) candidate
    rw [bookAfter, bookAfter, List.foldl_append]
    exact grown.2
  -- the call that is looked at, and those before it
  have early : before ++ [q] <+: inquiries := ⟨rest, by simp [split]⟩
  have told' : ToldByAddress ((before ++ [q]).flatMap (·.candidates)) := fun f member g other =>
    told f (candidates_subset early f member) g (candidates_subset early g other)
  have faithful := (bookAfter_faithful finds told' (List.prefix_append before [q])).mono
    (candidates_subset (List.prefix_append before [q]))
  have part : ∀ f ∈ q.candidates, f ∈ (before ++ [q]).flatMap (·.candidates) :=
    fun f candidate => mem_candidates (List.mem_append_right before List.mem_cons_self) candidate
  refine ⟨endsAsAlone told' part faithful, fun stops => ?_⟩
  exact leave_lasts (q := { q with stops := stops }) told' part
    (StoreBook.lasts_faithful finds _) faithful

/-! ### A call that is interrupted, and made again -/

/-- What the detector of the small program finds. -/
def sampleFinds (f : Function) : List VptrStore :=
  (Detector.sampleStores f).toOption.getD []

/-- A call about a class of the small program, whose vtable the first of two functions stores. -/
def sample (stops : Function → Bool) : Inquiry where
  context := .sampleStores
  known := .initial
  owner := ⟨0x400010, .single⟩
  vtable :=
    { address := 0x400028, typeInfo := 0x400010,
      tables := [{ start := 0x400028, header := 0x400028, addressPoint := 0x400038 }] }
  vtt := none
  candidates := Context.sampleStores.image.functions
  stops := stops

/-- The call is interrupted once the first function has been examined.  When it is made again, it
    finds this function and asks about the other one only. -/
theorem shared_stores_transparent_sample : ∃ found after,
    (sample fun _ => false).run sampleFinds
      (bookAfter sampleFinds [sample (·.address == 0x600008)]) = .ok found after ∧
    (sample fun _ => false).alone sampleFinds = .ok found { after with stores := {} } ∧
    found.map (·.function.address) = [0x600000] ∧
    (bookAfter sampleFinds [sample (·.address == 0x600008)]).asked = [0x600000] ∧
    (bookAfter sampleFinds [sample (·.address == 0x600008), sample fun _ => false]).asked =
      [0x600000, 0x600008] := by
  have told : ToldByAddress
      ([sample (·.address == 0x600008), sample fun _ => false].flatMap (·.candidates)) := by
    unfold ToldByAddress
    decide +kernel
  have addresses : (((sample fun _ => false).question sampleFinds fun _ => false).run'
      { Knowledge.initial with
        stores := bookAfter sampleFinds [sample (·.address == 0x600008)] }).map
        (·.map (·.function.address)) = some [0x600000] := by decide +kernel
  obtain ⟨found, answer, listed⟩ := Option.map_eq_some_iff.mp addresses
  obtain ⟨after, answered⟩ := run'_eq_some_iff.mp answer
  replace answered : (sample fun _ => false).run sampleFinds
    (bookAfter sampleFinds [sample (·.address == 0x600008)]) = .ok found after := answered
  obtain ⟨-, ends⟩ := shared_stores_transparent sampleFinds _ told
  obtain ⟨asAlone, -⟩ := ends [sample (·.address == 0x600008)] (sample fun _ => false) [] rfl
  rcases asAlone with
    ⟨other, later, again, alone⟩ | ⟨fault, later, failed, -⟩ | ⟨later, failed, -⟩
  · cases answered.symm.trans again
    exact ⟨found, after, answered, alone, listed, by decide +kernel, by decide +kernel⟩
  · cases answered.symm.trans failed
  · cases answered.symm.trans failed

end Inquiry

end ItaniumRtti
