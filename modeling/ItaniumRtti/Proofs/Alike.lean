import ItaniumRtti.Proofs.Faults
import ItaniumRtti.Proofs.Recover

namespace ItaniumRtti

/-!
# Questions that are answered alike

Two questions are compared by asking both, each in a state of its own.

* `Recover.Link` — the states of knowledge that correspond, and the faults that may occur;
* `Recover.EndAlike` — two runs end with the same answer or the same fault, in linked states;
* `Recover.Alike` — so do all runs of two questions from linked states;
* `Recover.Alike.bind` and the other rules — how questions that are built alike are answered alike.

`P` says in each case what is known about a common answer.
-/

namespace Recover

variable {α β : Type}

/-- How two runs may be linked. -/
structure Link where
  /-- The states of knowledge that correspond. -/
  states : Knowledge → Knowledge → Prop
  /-- The faults that may stop both. -/
  faults : Fault → Prop

/-- Two runs end with the same answer, which satisfies `P`, or with the same fault, one that may
    occur, and leave behind states that correspond. -/
inductive EndAlike (R : Link) (P : α → Prop) :
    EStateM.Result Fault Knowledge α → EStateM.Result Fault Knowledge α → Prop where
  /-- Both answer. -/
  | ok {a : α} {k k' : Knowledge} : P a → R.states k k' → EndAlike R P (.ok a k) (.ok a k')
  /-- Both stop. -/
  | error {fault : Fault} {k k' : Knowledge} : R.faults fault → R.states k k' →
      EndAlike R P (.error fault k) (.error fault k')

/-- What it means to end alike, by cases. -/
theorem EndAlike.cases {R : Link} {P : α → Prop}
    {r r' : EStateM.Result Fault Knowledge α} (ends : EndAlike R P r r') :
    (∃ a k k', r = .ok a k ∧ r' = .ok a k' ∧ P a ∧ R.states k k') ∨
      ∃ fault k k', r = .error fault k ∧ r' = .error fault k' ∧ R.faults fault ∧ R.states k k' := by
  cases ends with
  | ok holds related => exact .inl ⟨_, _, _, rfl, rfl, holds, related⟩
  | error allowed related => exact .inr ⟨_, _, _, rfl, rfl, allowed, related⟩

/-- From linked states two questions end alike. -/
def Alike (R : Link) (P : α → Prop) (q q' : Recover α) : Prop :=
  ∀ k k', R.states k k' → EndAlike R P (q k) (q' k')

/-- Nothing is asked of an answer. -/
def Any : α → Prop := fun _ => True

/-- The set of all faults covers every program. -/
theorem tolerates_any (ctx : Context) : ctx.Tolerates Any where
  cancelled _ := trivial
  byteOrder _ := trivial
  unfitLimit _ := trivial

namespace Alike

variable {R : Link} {P Q : α → Prop} {q q' : Recover α}

/-- Two questions that give the same answer at once. -/
theorem pure {a : α} (holds : P a) : Alike R P (pure a) (pure a) :=
  fun _ _ related => .ok holds related

/-- Two questions that stop at once with the same fault. -/
theorem throw {fault : Fault} (allowed : R.faults fault) :
    Alike R P (throw fault) (throw fault) :=
  fun _ _ related => .error allowed related

/-- Less may be said about the common answer. -/
theorem mono (weaker : ∀ a, P a → Q a) (alike : Alike R P q q') : Alike R Q q q' := by
  intro k k' related
  rcases (alike k k' related).cases with
    ⟨a, l, l', hq, hq', holds, after⟩ | ⟨_, l, l', hq, hq', allowed, after⟩
  · rw [hq, hq']
    exact .ok (weaker a holds) after
  · rw [hq, hq']
    exact .error allowed after

theorem any (alike : Alike R P q q') : Alike R Any q q' :=
  alike.mono fun _ _ => trivial

/-- Questions asked one after the other. -/
theorem bind {S : β → Prop} {f f' : α → Recover β} (first : Alike R P q q')
    (second : ∀ a, P a → Alike R S (f a) (f' a)) : Alike R S (q >>= f) (q' >>= f') := by
  intro k k' related
  rcases (first k k' related).cases with
    ⟨a, l, l', hq, hq', holds, after⟩ | ⟨_, l, l', hq, hq', allowed, after⟩
  · rw [bind_ok hq, bind_ok hq']
    exact second a holds l l' after
  · rw [bind_error hq, bind_error hq']
    exact .error allowed after

/-- The same answer of a computation that needs no knowledge. -/
theorem lift {answer : Except Fault α} (only : OnlyFaults R.faults answer)
    (holds : ∀ a, answer = .ok a → P a) : Alike R P (lift answer) (Recover.lift answer) := by
  intro k k' related
  cases answer with
  | ok a => exact .ok (holds a rfl) related
  | error fault => exact .error (only fault rfl) related

/-- The same, when nothing is asked of the answer. -/
theorem liftAny {answer : Except Fault α} (only : OnlyFaults R.faults answer) :
    Alike R Any (Recover.lift answer) (Recover.lift answer) :=
  lift only fun _ _ => trivial

theorem map {f : α → β} {S : β → Prop} (alike : Alike R P q q') (holds : ∀ a, P a → S (f a)) :
    Alike R S (q >>= fun a => Pure.pure (f a)) (q' >>= fun a => Pure.pure (f a)) :=
  alike.bind fun a good => .pure (holds a good)

/-- A choice that both sides make in the same way. -/
theorem ite {c : Prop} [Decidable c] {r r' : Recover α} (yes : c → Alike R P q q')
    (no : ¬ c → Alike R P r r') : Alike R P (if c then q else r) (if c then q' else r') := by
  split
  · next holds => exact yes holds
  · next fails => exact no fails

/-- Changes of the two states that keep them linked. -/
theorem modify {f f' : Knowledge → Knowledge}
    (kept : ∀ k k', R.states k k' → R.states (f k) (f' k')) :
    Alike R Any (modify f) (modify f') :=
  fun k k' related => .ok trivial (kept k k' related)

/-! ### Lists -/

/-- A question asked about each element of a list: `T` is known of the elements, `S` of the answers.
    -/
theorem mapM {T : α → Prop} {S : β → Prop} {f f' : α → Recover β} :
    ∀ {l : List α}, (∀ a ∈ l, T a) → (∀ a, T a → Alike R S (f a) (f' a)) →
      Alike R (fun bs => ∀ b ∈ bs, S b) (l.mapM f) (l.mapM f')
  | [], _, _ => by
    simp only [List.mapM_nil]
    exact .pure fun b member => absurd member List.not_mem_nil
  | a :: rest, good, each => by
    simp only [List.mapM_cons]
    refine (each a (good a (List.mem_cons_self ..))).bind fun b here => ?_
    have others : ∀ c ∈ rest, T c := fun c member => good c (List.mem_cons_of_mem a member)
    refine (mapM others each).bind fun bs there => ?_
    exact .pure (List.forall_mem_cons.mpr ⟨here, there⟩)

/-- A search for an element that answers yes; both sides stop at the same one. -/
theorem anyM {T : α → Prop} {f f' : α → Recover Bool} :
    ∀ {l : List α}, (∀ a ∈ l, T a) → (∀ a, T a → Alike R Any (f a) (f' a)) →
      Alike R Any (l.anyM f) (l.anyM f')
  | [], _, _ => .pure trivial
  | a :: rest, good, each => by
    rw [List.anyM, List.anyM]
    refine (each a (good a (List.mem_cons_self ..))).bind fun holds _ => ?_
    cases holds with
    | true => exact .pure trivial
    | false => exact anyM (fun b member => good b (List.mem_cons_of_mem a member)) each

/-- A run over a list with an accumulator, of which `S` is invariant. -/
theorem foldlM {T : α → Prop} {S : β → Prop} {f f' : β → α → Recover β} :
    ∀ {l : List α} {start : β}, (∀ a ∈ l, T a) → S start →
      (∀ b a, S b → T a → Alike R S (f b a) (f' b a)) →
      Alike R S (l.foldlM f start) (l.foldlM f' start)
  | [], start, _, begins, _ => by
    simp only [List.foldlM_nil]
    exact .pure begins
  | a :: rest, start, good, begins, each => by
    simp only [List.foldlM_cons]
    refine (each start a begins (good a (List.mem_cons_self ..))).bind fun b holds => ?_
    exact foldlM (fun c member => good c (List.mem_cons_of_mem a member)) holds each

/-- The elements that answer yes. They are elements of the list, so `T` is known of them. -/
theorem filterM {T : α → Prop} {f f' : α → Recover Bool} {l : List α} (good : ∀ a ∈ l, T a)
    (each : ∀ a, T a → Alike R Any (f a) (f' a)) :
    Alike R (fun kept => ∀ a ∈ kept, T a) (l.filterM f) (l.filterM f') := by
  -- `List.filterM` collects its answer in reverse, so the induction is over the collecting loop
  -- with what it has kept so far.
  have collected : ∀ (l kept : List α), (∀ a ∈ l, T a) → (∀ a ∈ kept, T a) →
      Alike R (fun kept => ∀ a ∈ kept, T a) (l.filterAuxM f kept) (l.filterAuxM f' kept) := by
    intro l
    induction l with
    | nil => exact fun kept _ known => .pure known
    | cons a rest ih =>
      intro kept good known
      obtain ⟨first, others⟩ := List.forall_mem_cons.mp good
      rw [List.filterAuxM, List.filterAuxM]
      refine (each a first).bind fun holds _ => ih _ others ?_
      cases holds with
      | true => exact List.forall_mem_cons.mpr ⟨first, known⟩
      | false => exact known
  refine (collected l [] good (List.forall_mem_nil T)).bind fun kept known => ?_
  exact .pure fun a member => known a (List.mem_reverse.mp member)

end Alike

/-! ### Links -/

/-- States in which `S` holds. -/
def Link.invariant (S : Knowledge → Prop) (F : Fault → Prop) : Link :=
  ⟨fun k k' => S k ∧ S k', F⟩

/-- Equal states, and any fault. -/
def Link.same : Link := ⟨Eq, Any⟩

/-- In equal states, questions that are answered alike are the same. -/
theorem Alike.eq {F : Fault → Prop} {P : α → Prop} {q q' : Recover α}
    (alike : Alike ⟨Eq, F⟩ P q q') : q = q' := by
  funext k
  rcases (alike k k rfl).cases with ⟨a, l, _, hq, hq', -, rfl⟩ | ⟨fault, l, _, hq, hq', -, rfl⟩
  · rw [hq, hq']
  · rw [hq, hq']

/-- Conversely, a question is answered like itself. -/
theorem Alike.of_eq {q q' : Recover α} (same : q = q') : Alike .same Any q q' := by
  rintro k _ rfl
  rw [same]
  cases q' k with
  | ok a after => exact .ok trivial rfl
  | error fault after => exact .error trivial rfl

end Recover

end ItaniumRtti
