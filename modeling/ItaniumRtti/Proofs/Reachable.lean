import ItaniumRtti.Proofs.Discovery
import ItaniumRtti.Proofs.WellFormed
import Mathlib.Data.List.TakeWhile

namespace ItaniumRtti

/-!
# Walks reach every class

A walk over the base graph ends when its fuel is used up or when no class is left to enter.  The
fuel is more than there are addresses of classes, so no class is missed.

* `Image.places` — the addresses that can be classes;
* `Context.edgesFrom_closed` — a walk that ends has listed the bases of every class it lists;
* `Context.wellFormed_of_edges` — so a walk from a class that ends has met no malformed class;
* `Context.mem_ancestors` — and every other class that can be reached is an ancestor.
-/

open Recover

/-! ### Addresses of classes -/

/-- The addresses of a block. -/
def Block.places (b : Block) : List Int :=
  (List.range b.size.toNat).map fun n => b.start + Int.ofNat n

theorem Block.mem_places {b : Block} {address : Int} (covers : b.Covers address) :
    address ∈ b.places := by
  obtain ⟨first, last⟩ := covers
  rw [stop] at last
  rw [places, List.mem_map]
  refine ⟨(address - b.start).toNat, List.mem_range.mpr (by omega), ?_⟩
  show b.start + ((address - b.start).toNat : Int) = address
  omega

/-- The addresses that can be classes: those of blocks, and those of relocated words outside. -/
def Image.places (img : Image) : List Int :=
  img.blocks.flatMap Block.places ++
    (img.relocationList.filter fun p => (img.blockAt? p.1).isNone).map (·.1)

/-- There are fewer such addresses than the bound on the walk. -/
theorem Image.length_places (img : Image) : img.places.length < img.classBound := by
  have blocks : ∀ blocks : List Block, (blocks.flatMap Block.places).length =
      (blocks.map (·.size.toNat)).foldr (· + ·) 0 := by
    intro blocks
    induction blocks with
    | nil => rfl
    | cons b rest ih =>
      rw [List.flatMap_cons, List.length_append, ih, Block.places, List.length_map,
        List.length_range]
      rfl
  rw [places, List.length_append, blocks, List.length_map]
  exact Nat.lt_succ_self _

namespace Context

variable {ctx : Context}

/-- A class is recognised by a word in a block or by a relocation. -/
theorem Identified.mem_places {t : TypeInfo} (identified : ctx.Identified t) :
    t.address ∈ ctx.image.places := by
  -- A word that is read lies in a block; a relocation may stand outside.
  have either : (ctx.image.blockAt? t.address).isSome = true ∨
      ∃ r, ctx.image.relocationAt? t.address = some r := by
    rcases Roots.cases_of_identify identified with ⟨r, _, present, -⟩ | ⟨_, _, resolved⟩
    · exact .inr ⟨r, present⟩
    · rw [Image.resolve] at resolved
      cases relocated : ctx.image.relocationAt? t.address with
      | some r => exact .inr ⟨r, rfl⟩
      | none =>
        simp only [relocated] at resolved
        obtain ⟨b, found, -⟩ := Image.blockAt?_of_readInt resolved
        exact .inl (Option.isSome_of_eq_some found)
  rw [Image.places, List.mem_append]
  cases found : ctx.image.blockAt? t.address with
  | some b =>
    obtain ⟨member, covers⟩ := Image.mem_of_blockAt? found
    exact .inl (List.mem_flatMap.mpr ⟨b, member, Block.mem_places covers⟩)
  | none =>
    rw [found] at either
    obtain ⟨r, relocated⟩ := either.resolve_left Bool.false_ne_true
    refine .inr (List.mem_map.mpr ⟨(t.address, r), List.mem_filter.mpr ⟨?_, ?_⟩, rfl⟩)
    · exact Image.mem_relocationList.mpr relocated
    · rw [found]
      rfl

/-! ### Walks -/

/-- Direct bases that were answered are those that a first question would get. -/
theorem of_bases_ok {t : TypeInfo} (identified : ctx.Identified t) {known after : Knowledge}
    (sound : ctx.SoundBases known) {bases : List Base}
    (answered : t.bases ctx known = .ok bases after) :
    Fresh (t.readBases ctx) bases ∧ (∀ b ∈ bases, ctx.Identified b.target) ∧
      ctx.SoundBases after := by
  have ends := bases_spec identified sound
  rw [answered] at ends
  exact ends.of_ok

/-- The list `edges` has the direct bases of `c`. -/
def Lists (ctx : Context) (edges : List Base) (c : TypeInfo) : Prop :=
  ∃ bases, Fresh (c.readBases ctx) bases ∧ ∀ b ∈ bases, b ∈ edges

theorem Lists.mono {edges more : List Base} {c : TypeInfo} (lists : ctx.Lists edges c)
    (subset : ∀ e ∈ edges, e ∈ more) : ctx.Lists more c := by
  obtain ⟨bases, fresh, listed⟩ := lists
  exact ⟨bases, fresh, fun b member => subset b (listed b member)⟩

/-- **A walk that ends has listed everything below.**  It lists the edges that were pending, and
    for each edge listed the edges of its target, unless that had been entered before. -/
theorem edgesFrom_closed {fuel : Nat} {seen : List Int} {pending edges : List Base}
    {known after : Knowledge} (sound : ctx.SoundBases known)
    (targets : ∀ e ∈ pending, ctx.Identified e.target) (nodup : seen.Nodup)
    (inside : ∀ a ∈ seen, a ∈ ctx.image.places)
    (enough : ctx.image.places.length < fuel + seen.length)
    (walked : edgesFrom ctx fuel seen pending known = .ok edges after) :
    (∀ e ∈ pending, e ∈ edges) ∧ ∀ e ∈ edges, ctx.Identified e.target ∧
      (e.target.address ∈ seen ∨ ctx.Lists edges e.target) := by
  induction fuel generalizing seen pending edges known with
  | zero =>
    -- All addresses of classes have been entered, and one more.
    have most := (List.subperm_of_subset nodup inside).length_le
    omega
  | succ fuel ih =>
    rw [edgesFrom] at walked
    have split := List.takeWhile_append_dropWhile (p := fun e : Base =>
      seen.contains e.target.address) (l := pending)
    have old : ∀ e ∈ pending.takeWhile (fun e => seen.contains e.target.address),
        ctx.Identified e.target ∧ e.target.address ∈ seen := by
      intro e member
      have entered := List.mem_takeWhile_imp member
      exact ⟨targets e ((List.takeWhile_prefix _).subset member), List.contains_iff_mem.mp entered⟩
    cases new : pending.dropWhile (fun e => seen.contains e.target.address) with
    | nil =>
      simp only [new] at walked
      cases walked
      rw [new, List.append_nil] at split
      rw [split] at old ⊢
      exact ⟨fun e member => member, fun e member => ⟨(old e member).1, .inl (old e member).2⟩⟩
    | cons edge rest =>
      simp only [new] at walked
      rw [new] at split
      have ahead : ∀ e ∈ edge :: rest, ctx.Identified e.target := fun e member =>
        targets e (split ▸ List.mem_append_right _ member)
      obtain ⟨here, others⟩ := List.forall_mem_cons.mp ahead
      have fresh : edge.target.address ∉ seen := by
        intro entered
        have first := List.head?_dropWhile_not (fun e : Base => seen.contains e.target.address)
          pending
        rw [new] at first
        exact Bool.false_ne_true (first.symm.trans (List.contains_iff_mem.mpr entered))
      obtain ⟨below, k, answered, walked⟩ := of_bind_ok walked
      obtain ⟨read, good, still⟩ := of_bases_ok here sound answered
      obtain ⟨more, l, deeper, walked⟩ := of_bind_ok walked
      cases walked
      obtain ⟨listed, closed⟩ := ih still (List.forall_mem_append.mpr ⟨good, others⟩)
        (List.nodup_cons.mpr ⟨fresh, nodup⟩)
        (List.forall_mem_cons.mpr ⟨here.mem_places, inside⟩)
        (by rw [List.length_cons]; omega) deeper
      obtain ⟨lower, later⟩ := List.forall_mem_append.mp listed
      have deep : ∀ e ∈ more, e ∈ pending.takeWhile (fun e => seen.contains e.target.address) ++
          edge :: more :=
        fun e member => List.mem_append_right _ (List.mem_cons_of_mem edge member)
      have entered : ctx.Lists (pending.takeWhile (fun e => seen.contains e.target.address) ++
          edge :: more) edge.target :=
        ⟨below, read, fun b member => deep b (lower b member)⟩
      refine ⟨fun e member => ?_, fun e member => ?_⟩
      · rw [← split] at member
        rcases List.mem_append.mp member with before | from_here
        · exact List.mem_append_left _ before
        · rcases List.mem_cons.mp from_here with rfl | after
          · exact List.mem_append_right _ (List.mem_cons_self ..)
          · exact deep e (later e after)
      · rcases List.mem_append.mp member with before | from_here
        · exact ⟨(old e before).1, .inl (old e before).2⟩
        · rcases List.mem_cons.mp from_here with rfl | after
          · exact ⟨here, .inr entered⟩
          · obtain ⟨is, either⟩ := closed e after
            refine ⟨is, ?_⟩
            rcases either with again | lists
            · -- The target is the class entered now, or was entered before.
              rcases List.mem_cons.mp again with same | older
              · exact .inr (is.eq_of_address here same ▸ entered)
              · exact .inl older
            · exact .inr (lists.mono deep)

/-! ### Walks from a class -/

/-- The walk from a class lists its bases and those of every class that it lists. -/
theorem edges_closed {t : TypeInfo} (identified : ctx.Identified t) {known after : Knowledge}
    (sound : ctx.SoundBases known) {edges : List Base}
    (walked : t.edges ctx known = .ok edges after) :
    ctx.Lists edges t ∧ ∀ e ∈ edges, ctx.Identified e.target ∧ ctx.Lists edges e.target := by
  rw [TypeInfo.edges] at walked
  obtain ⟨bases, k, answered, walked⟩ := of_bind_ok walked
  obtain ⟨read, good, still⟩ := of_bases_ok identified sound answered
  obtain ⟨listed, closed⟩ := edgesFrom_closed still good (List.nodup_singleton _)
    (List.forall_mem_singleton.mpr identified.mem_places)
    (Nat.lt_succ_of_lt ctx.image.length_places) walked
  have own : ctx.Lists edges t := ⟨bases, read, listed⟩
  refine ⟨own, fun e member => ?_⟩
  obtain ⟨is, either⟩ := closed e member
  refine ⟨is, ?_⟩
  rcases either with first | lists
  · -- The walk came back to the class that it started from.
    rw [is.eq_of_address identified (List.mem_singleton.mp first)]
    exact own
  · exact lists

/-- Every class that can be reached from a class is on the walk from it. -/
theorem edges_complete {t : TypeInfo} (identified : ctx.Identified t) {known after : Knowledge}
    (sound : ctx.SoundBases known) {edges : List Base}
    (walked : t.edges ctx known = .ok edges after) {c : TypeInfo} (reached : ctx.Reaches t c) :
    ctx.Lists edges c ∧ (c = t ∨ ∃ e ∈ edges, e.target = c) := by
  obtain ⟨own, closed⟩ := edges_closed identified sound walked
  induction reached with
  | self => exact ⟨own, .inl rfl⟩
  | base _ fresh member ih =>
    obtain ⟨⟨bases, again, inside⟩, -⟩ := ih
    rw [← fresh.unique again] at inside
    have listed := inside _ member
    exact ⟨(closed _ listed).2, .inr ⟨_, listed, rfl⟩⟩

/-- **A walk that ends has met no malformed class.** -/
theorem wellFormed_of_edges {t : TypeInfo} (identified : ctx.Identified t)
    {known after : Knowledge} (sound : ctx.SoundBases known) {edges : List Base}
    (walked : t.edges ctx known = .ok edges after) : ctx.WellFormed t := by
  intro c reached
  obtain ⟨⟨bases, fresh, -⟩, -⟩ := edges_complete identified sound walked reached
  exact ⟨bases, fresh⟩

/-- Nor has the walk that once collected the virtual bases of a class. -/
theorem wellFormed_of_virtualBases {t : TypeInfo} (identified : ctx.Identified t)
    {known after : Knowledge} (sound : ctx.SoundBases known) {classes : List TypeInfo}
    (answered : t.virtualBases ctx known = .ok classes after) : ctx.WellFormed t := by
  intro c
  have ends := virtualBases_spec identified (collectVirtualBases_alike ⟨identified, .self⟩) sound
  rw [answered] at ends
  obtain ⟨⟨first, collected⟩, -⟩ := ends.of_ok
  obtain ⟨edges, k, walked, -⟩ := of_bind_ok collected
  exact wellFormed_of_edges identified soundBases_initial walked

end Context

/-- Each class of a list is kept by `firstOccurrences`, or another class at its address. -/
theorem exists_mem_firstOccurrences {classes : List TypeInfo} {t : TypeInfo}
    (member : t ∈ classes) : ∃ s ∈ firstOccurrences classes, s.address = t.address := by
  -- Once a class is among those seen, one at its address stays there.
  have kept : ∀ (classes seen : List TypeInfo),
      t ∈ classes ∨ (∃ s ∈ seen, s.address = t.address) →
      ∃ s ∈ classes.foldl (fun seen t =>
        if seen.any (·.address == t.address) then seen else seen ++ [t]) seen,
        s.address = t.address := by
    intro classes
    induction classes with
    | nil => exact fun seen either => either.resolve_left List.not_mem_nil
    | cons c rest ih =>
      intro seen either
      rw [List.foldl_cons]
      apply ih
      rcases either with here | ⟨s, old, same⟩
      · rcases List.mem_cons.mp here with rfl | later
        · refine .inr ?_
          split
          · next present =>
            obtain ⟨s, old, same⟩ := List.any_eq_true.mp present
            exact ⟨s, old, beq_iff_eq.mp same⟩
          · exact ⟨t, List.mem_append_right _ (List.mem_singleton_self t), rfl⟩
        · exact .inl later
      · refine .inr ⟨s, ?_, same⟩
        split
        · exact old
        · exact List.mem_append_left _ old
  exact kept classes [] (.inl member)

namespace Context

variable {ctx : Context}

/-- **Every other class that can be reached is an ancestor.** -/
theorem mem_ancestors {t : TypeInfo} (identified : ctx.Identified t) {known after : Knowledge}
    (sound : ctx.SoundBases known) {ancestors : List TypeInfo}
    (walked : t.ancestors ctx known = .ok ancestors after) {c : TypeInfo}
    (reached : ctx.Reaches t c) (other : c ≠ t) : c ∈ ancestors := by
  rw [TypeInfo.ancestors] at walked
  obtain ⟨edges, k, below, walked⟩ := of_bind_ok walked
  cases walked
  obtain ⟨-, closed⟩ := edges_closed identified sound below
  have is : ∀ {s}, s ∈ edges.map (·.target) → ctx.Identified s := by
    intro s member
    obtain ⟨e, listed, rfl⟩ := List.mem_map.mp member
    exact (closed e listed).1
  obtain ⟨-, either⟩ := edges_complete identified sound below reached
  have present : c ∈ edges.map (·.target) := List.mem_map.mpr (either.resolve_left other)
  obtain ⟨s, kept, same⟩ := exists_mem_firstOccurrences present
  -- The class that is kept for the address is the class itself, since there is one class at an
  -- address.
  have itself := (is (mem_of_mem_firstOccurrences kept)).eq_of_address (is present) same
  subst itself
  refine List.mem_filter.mpr ⟨kept, decide_eq_true fun back => ?_⟩
  exact other ((is present).eq_of_address identified back)

end Context

end ItaniumRtti
