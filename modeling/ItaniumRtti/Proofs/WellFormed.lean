import ItaniumRtti.Proofs.Sound

namespace ItaniumRtti

/-!
# Hierarchies without malformed classes

* `Context.Reaches`, `Context.Below` — a class can be reached through direct bases;
* `Context.WellFormed` — no class that can be reached is malformed;
* `Context.wellFormed_of_closed` — how to check that by listing the hierarchy;
* `Context.soundWalking` — walks over any hierarchy end as they would if they were the first;
* `Context.WellFormed.walking` — walks over such a hierarchy always answer, whatever is known.
-/

open Recover

namespace Context

/-- A class can be reached from `t` through direct bases. -/
inductive Reaches (ctx : Context) (t : TypeInfo) : TypeInfo → Prop where
  /-- The class itself. -/
  | self : Reaches ctx t t
  /-- A direct base of a class that can be reached. -/
  | base {c : TypeInfo} {bases : List Base} {b : Base} : Reaches ctx t c →
      Fresh (c.readBases ctx) bases → b ∈ bases → Reaches ctx t b.target

/-- The class is recognised and can be reached from `t`. -/
def Below (ctx : Context) (t c : TypeInfo) : Prop :=
  ctx.Identified c ∧ ctx.Reaches t c

/-- The direct bases of every class that can be reached from `t` can be read. -/
def WellFormed (ctx : Context) (t : TypeInfo) : Prop :=
  ∀ {c : TypeInfo}, ctx.Reaches t c → ∃ bases, Fresh (c.readBases ctx) bases

/-- Whether the direct bases of all these classes can be read and are among them. -/
def closed (ctx : Context) (classes : List TypeInfo) : Bool :=
  classes.all fun c =>
    ((c.readBases ctx).run' .initial).any fun bases => bases.all fun b => classes.contains b.target

variable {ctx : Context}

theorem Reaches.trans {r s t : TypeInfo} (first : ctx.Reaches r s) (second : ctx.Reaches s t) :
    ctx.Reaches r t := by
  induction second with
  | self => exact first
  | base _ fresh member ih => exact ih.base fresh member

theorem Below.trans {r s t : TypeInfo} (first : ctx.Below r s) (second : ctx.Below s t) :
    ctx.Below r t :=
  ⟨second.1, first.2.trans second.2⟩

/-- In a closed list, the bases of each class are read and listed. -/
theorem fresh_of_closed {classes : List TypeInfo} (closed : ctx.closed classes = true)
    {c : TypeInfo} (member : c ∈ classes) :
    ∃ bases, Fresh (c.readBases ctx) bases ∧ ∀ b ∈ bases, b.target ∈ classes := by
  have here := List.all_eq_true.mp closed c member
  cases read : (c.readBases ctx).run' .initial with
  | none => simp only [read, Option.any_none, Bool.false_eq_true] at here
  | some bases =>
    simp only [read, Option.any_some, List.all_eq_true, List.contains_iff_mem] at here
    exact ⟨bases, run'_eq_some_iff.mp read, here⟩

/-- A hierarchy that can be listed is well-formed. -/
theorem wellFormed_of_closed {classes : List TypeInfo} (closed : ctx.closed classes = true)
    {t : TypeInfo} (member : t ∈ classes) : ctx.WellFormed t := by
  intro c reached
  have listed : c ∈ classes := by
    induction reached with
    | self => exact member
    | base _ fresh among ih =>
      obtain ⟨bases, read, inside⟩ := fresh_of_closed closed ih
      exact inside _ (fresh.unique read ▸ among)
  obtain ⟨bases, fresh, -⟩ := fresh_of_closed closed listed
  exact ⟨bases, fresh⟩

/-! ### Walks -/

/-- States in which the bases that are kept are right, and no faults. -/
def basesLink (ctx : Context) : Link :=
  .invariant ctx.SoundBases fun _ => False

/-- From a sound state the direct bases of a class are the ones that a first question would get,
    and so is the fault that prevents it. -/
theorem bases_spec {t : TypeInfo} (identified : ctx.Identified t) {known : Knowledge}
    (sound : ctx.SoundBases known) :
    EndsAsFirst ctx.SoundBases Any (fun bases => ∀ b ∈ bases, ctx.Identified b.target)
      (t.readBases ctx) (t.bases ctx known) := by
  have read : Alike (.invariant ctx.SoundBases Any)
      (fun bases => ∀ b ∈ bases, ctx.Identified b.target) (t.readBases ctx) (t.readBases ctx) :=
    (ctx.reading (tolerates_any ctx) fun _ sound => sound).readBases (fun _ => trivial) t
  rw [TypeInfo.bases]
  exact remember_spec soundBases_initial read (fun sound kept => sound.1 identified kept)
    (fun sound fresh => sound.insertDirect identified fresh) sound

/-- From a sound state the virtual bases of a class are the ones that a first walk would collect,
    and so is the fault that prevents it. -/
theorem virtualBases_spec {F : Fault → Prop} {P : List TypeInfo → Prop} {t : TypeInfo}
    (identified : ctx.Identified t)
    (alike : Alike (.invariant ctx.SoundBases F) P (t.collectVirtualBases ctx)
      (t.collectVirtualBases ctx)) {known : Knowledge} (sound : ctx.SoundBases known) :
    EndsAsFirst ctx.SoundBases F P (t.collectVirtualBases ctx) (t.virtualBases ctx known) := by
  rw [TypeInfo.virtualBases]
  exact remember_spec soundBases_initial alike (fun sound kept => sound.2 identified kept)
    (fun sound fresh => sound.insertVirtual identified fresh) sound

/-- **Walks do not depend on what is known.**  They end alike from any two states in which the bases
    that are kept are right, and meet only classes that can be reached. -/
theorem soundWalking (t : TypeInfo) :
    Walking ctx ctx.image.relocations (.invariant ctx.SoundBases Any) (ctx.Below t) where
  bound := rfl
  bases {c} := by
    rintro ⟨identified, reached⟩ k k' ⟨sound, sound'⟩
    have below : ∀ bases, Fresh (c.readBases ctx) bases →
        (∀ b ∈ bases, ctx.Identified b.target) → ∀ b ∈ bases, ctx.Below t b.target :=
      fun bases fresh targets b member => ⟨targets b member, reached.base fresh member⟩
    exact ((bases_spec identified sound).mono below).alike
      ((bases_spec identified sound').mono below)
  virtualCell below alike _ _ sound :=
    (virtualBases_spec below.1 alike sound.1).alike (virtualBases_spec below.1 alike sound.2)

/-- Virtual bases are collected alike from any two states with right bases. -/
theorem collectVirtualBases_alike {t c : TypeInfo} (below : ctx.Below t c) :
    Alike (.invariant ctx.SoundBases Any) (fun classes => ∀ b ∈ classes, ctx.Below t b)
      (c.collectVirtualBases ctx) (c.collectVirtualBases ctx) :=
  (soundWalking t).collectVirtualBases below

/-- The virtual bases that a walk collects are those that a first walk would collect, and they can
    be reached. -/
theorem of_collectVirtualBases_ok {t c : TypeInfo} (below : ctx.Below t c) {known after : Knowledge}
    (sound : ctx.SoundBases known) {classes : List TypeInfo}
    (collected : c.collectVirtualBases ctx known = .ok classes after) :
    Fresh (c.collectVirtualBases ctx) classes ∧ ∀ b ∈ classes, ctx.Below t b := by
  have ends := endsAsFirst_of_alike soundBases_initial (collectVirtualBases_alike below) sound
  rw [collected] at ends
  exact ⟨ends.of_ok.1, ends.of_ok.2.1⟩

/-- The direct bases of a class whose bases can be read are answered from any sound state. -/
theorem bases_of_fresh {t : TypeInfo} (identified : ctx.Identified t) {bases : List Base}
    (fresh : Fresh (t.readBases ctx) bases) {known : Knowledge} (sound : ctx.SoundBases known) :
    (∀ b ∈ bases, ctx.Identified b.target) ∧
      ∃ after, t.bases ctx known = .ok bases after ∧ ctx.SoundBases after := by
  rcases bases_spec identified sound with
    ⟨_, after, answered, again, targets, still⟩ | ⟨_, _, _, ⟨_, failed⟩, _⟩
  · rw [fresh.unique again]
    exact ⟨targets, after, answered, still⟩
  · -- The bases can be read, so reading them did not fail.
    obtain ⟨_, read⟩ := fresh
    cases read.symm.trans failed

/-- **Walks over a well-formed hierarchy answer.**  They end without a fault and alike from any
    two states in which the bases that are kept are right. -/
theorem WellFormed.walking {t : TypeInfo} (wellFormed : ctx.WellFormed t) :
    Walking ctx ctx.image.relocations ctx.basesLink (ctx.Below t) where
  bound := rfl
  bases {c} := by
    rintro ⟨identified, reached⟩ k k' ⟨sound, sound'⟩
    obtain ⟨bases, fresh⟩ := wellFormed reached
    obtain ⟨targets, after, answered, still⟩ := bases_of_fresh identified fresh sound
    obtain ⟨-, after', answered', still'⟩ := bases_of_fresh identified fresh sound'
    show EndAlike _ _ (c.bases ctx k) (c.bases ctx k')
    rw [answered, answered']
    exact .ok (fun b member => ⟨targets b member, reached.base fresh member⟩) ⟨still, still'⟩
  virtualCell below alike _ _ sound :=
    (virtualBases_spec below.1 alike sound.1).alike (virtualBases_spec below.1 alike sound.2)

/-- A question that is answered alike and without a fault gets its first answer from any sound
    state. -/
theorem answer_of_alike {α : Type} {P : α → Prop} {q : Recover α}
    (alike : Alike ctx.basesLink P q q) {known : Knowledge} (sound : ctx.SoundBases known) :
    ∃ a after, Fresh q a ∧ q known = .ok a after ∧ P a ∧ ctx.SoundBases after := by
  rcases (alike .initial known ⟨soundBases_initial, sound⟩).cases with
    ⟨a, before, after, first, answered, holds, -, still⟩ | ⟨_, _, _, _, _, never, _⟩
  · exact ⟨a, after, ⟨before, first⟩, answered, holds, still⟩
  · exact never.elim

end Context

end ItaniumRtti
