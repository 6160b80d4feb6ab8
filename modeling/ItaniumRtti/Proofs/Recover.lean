import ItaniumRtti.Proofs.Search
import ItaniumRtti.Recovery.Monad

namespace ItaniumRtti

/-!
# Running questions

* `Recover.bind_ok`, `Recover.bind_error` — a question asked after another;
* `Recover.checkCancelled_running` — a question that nobody stopped goes on;
* `Roots.identify_ok` — recognition never fails in a known byte order;
* `Recover.classAt?_of_identify` — recognition also records the class.
-/

/-- A computation has a result if it is no fault. -/
theorem toOption_eq_some_iff {α : Type} {answer : Except Fault α} {a : α} :
    answer.toOption = some a ↔ answer = .ok a := by
  cases answer with
  | ok b => simp only [Except.toOption, Option.some.injEq, Except.ok.injEq]
  | error fault => simp only [Except.toOption, reduceCtorEq]

namespace Recover

variable {α β : Type}

/-- A question asked after one that is answered goes on in the state that it left. -/
theorem bind_ok {q : Recover α} {f : α → Recover β} {known after : Knowledge} {a : α}
    (first : q known = .ok a after) : (q >>= f) known = f a after := by
  show EStateM.bind q f known = _
  rw [EStateM.bind, first]

/-- After a question that stops, nothing is asked. -/
theorem bind_error {q : Recover α} {f : α → Recover β} {known after : Knowledge} {fault : Fault}
    (first : q known = .error fault after) : (q >>= f) known = .error fault after := by
  show EStateM.bind q f known = _
  rw [EStateM.bind, first]

/-- If a question asked after another is answered, so was the first. -/
theorem of_bind_ok {q : Recover α} {f : α → Recover β} {known after : Knowledge} {b : β}
    (answered : (q >>= f) known = .ok b after) :
    ∃ a k, q known = .ok a k ∧ f a k = .ok b after := by
  cases first : q known with
  | ok a k =>
    rw [bind_ok first] at answered
    exact ⟨a, k, rfl, answered⟩
  | error fault k =>
    rw [bind_error first] at answered
    cases answered

/-- If only the answer of a question is changed, a fault is the question's own. -/
theorem of_map_error {q : Recover α} {f : α → β} {known after : Knowledge} {fault : Fault}
    (stopped : (q >>= fun a => pure (f a)) known = .error fault after) :
    q known = .error fault after := by
  cases first : q known with
  | ok a k =>
    rw [bind_ok first] at stopped
    cases stopped
  | error other k =>
    rw [bind_error first] at stopped
    cases stopped
    rfl

theorem get_bind (f : Knowledge → Recover α) (known : Knowledge) :
    (get >>= f) known = f known known :=
  rfl

theorem ite_bind (c : Prop) [Decidable c] (q q' : Recover α) (f : α → Recover β) :
    (if c then q >>= f else q' >>= f) = (if c then q else q') >>= f := by
  split <;> rfl

/-- A computation that succeeds is an answer, and nothing is learnt from it. -/
theorem lift_ok {answer : Except Fault α} {a : α} (known : Knowledge) (ok : answer = .ok a) :
    lift answer known = .ok a known := by
  rw [ok]
  rfl

/-- One that fails stops the question, and nothing is learnt from it either. -/
theorem lift_error {answer : Except Fault α} {fault : Fault} (known : Knowledge)
    (error : answer = .error fault) : lift answer known = .error fault known := by
  rw [error]
  rfl

/-- A question has an answer if its run ends with one. -/
theorem run'_eq_some_iff {q : Recover α} {known : Knowledge} {a : α} :
    q.run' known = some a ↔ ∃ after, q known = .ok a after := by
  delta EStateM.run' EStateM.run
  cases q known with
  | ok b after =>
    simp only [Option.some.injEq, EStateM.Result.ok.injEq, exists_and_left, exists_eq', and_true]
  | error fault after => simp only [reduceCtorEq, exists_false]

/-- A call of the detector is noted when it is answered. -/
theorem consult_ok {detector : Detector} {f : Function} {all : List VptrStore} (known : Knowledge)
    (ok : detector f = .ok all) :
    consult detector f known = .ok all { known with stores := known.stores.note f } := by
  rw [consult, bind_ok (lift_ok known ok)]
  rfl

/-- A call that fails is not noted. -/
theorem consult_error {detector : Detector} {f : Function} {fault : Fault} (known : Knowledge)
    (error : detector f = .error fault) : consult detector f known = .error fault known :=
  bind_error (lift_error known error)

/-- A question that nobody stopped goes on. -/
theorem checkCancelled_running {ctx : Context} (running : ctx.cancelled = false) :
    checkCancelled ctx = pure () := by
  rw [checkCancelled, running]
  rfl

end Recover

/-! ### Recognition -/

namespace Image

variable {img : Image}

/-- In a known byte order every word can be asked for; where there is none, that is the answer. -/
theorem resolve_ok (readable : img.order.Known) (address : Int) :
    ∃ value, img.resolve address = .ok value := by
  rw [resolve]
  cases img.relocationAt? address with
  | none => exact readInt_ok readable address img.ptr false
  | some r => exact ⟨_, rfl⟩

end Image

namespace Roots

variable {img : Image}

/-- So can the class at an address. -/
theorem identify_ok (roots : Roots) (readable : img.order.Known) (address : Int) :
    ∃ found, roots.identify img address = .ok found := by
  rw [identify]
  split
  · exact ⟨none, rfl⟩
  · rw [kindOf]
    cases (img.relocationAt? address).bind (·.symbol) with
    | some symbol => exact ⟨_, rfl⟩
    | none =>
      obtain ⟨value, resolved⟩ := img.resolve_ok readable address
      rw [resolved]
      exact ⟨_, rfl⟩

/-- A recognised class is at the address it was recognised at. -/
theorem address_of_identify {roots : Roots} {address : Int} {t : TypeInfo}
    (found : roots.identify img address = .ok (some t)) : t.address = address := by
  rw [identify] at found
  split at found
  · cases found
  · cases kind : roots.kindOf img address with
    | error fault => simp only [kind, reduceCtorEq] at found
    | ok kind' =>
      simp only [kind, Except.ok.injEq, Option.map_eq_some_iff] at found
      obtain ⟨k, -, rfl⟩ := found
      rfl

end Roots

/-- What is known once the class `t` has been met. -/
def Knowledge.meet (known : Knowledge) (t : TypeInfo) : Knowledge :=
  { known with classes := known.classes.insert t.address t.kind }

namespace Recover

/-- Recognition is a question that also records the class it finds. -/
theorem classAt?_of_identify {ctx : Context} {address : Int} {found : Option TypeInfo}
    (identified : ctx.roots.identify ctx.image address = .ok found) (known : Knowledge) :
    classAt? ctx address known = .ok found (found.elim known known.meet) := by
  rw [classAt?, bind_ok (lift_ok known identified)]
  cases found with
  | none => rfl
  | some t => rfl

end Recover

end ItaniumRtti
