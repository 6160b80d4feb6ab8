import ItaniumRtti.Proofs.Recover
import ItaniumRtti.Vtable.Locate

namespace ItaniumRtti

/-!
# Relocations that nothing notices

A word that holds a pointer may be relocated to the very pointer it holds.  Recovery reads words in
several ways, some of which ask whether the word is relocated at all; none of them can tell the
difference.

* `Image.withRelocations`, `Context.withRelocations` — the same program with other relocations;
* `Context.KeepsWord` — other relocations leave a word as it is, or relocate it to what it holds;
* `Context.ReadsAlike` — they do so with every word, and reference searches find the same;
* `Context.ReadsAlike.resolve` and the lemmas after it — one for each way of reading words.
-/

/-- The image with other relocations. -/
def Image.withRelocations (img : Image) (relocations : Std.TreeMap Int Relocation) : Image :=
  { img with relocations := relocations }

/-- The context whose image has other relocations. -/
def Context.withRelocations (ctx : Context) (relocations : Std.TreeMap Int Relocation) : Context :=
  { ctx with image := ctx.image.withRelocations relocations }

namespace Context

variable (ctx : Context) (relocations : Std.TreeMap Int Relocation)

theorem relocationAt?_withRelocations (address : Int) :
    (ctx.withRelocations relocations).image.relocationAt? address = relocations[address]? :=
  rfl

theorem blockAt?_withRelocations (address : Int) :
    (ctx.withRelocations relocations).image.blockAt? address = ctx.image.blockAt? address :=
  rfl

theorem symbolAddress?_withRelocations (name : String) :
    (ctx.withRelocations relocations).image.symbolAddress? name = ctx.image.symbolAddress? name :=
  rfl

/-- With other relocations the word at `address` is relocated as before, or it was not relocated
    and is now relocated to the pointer that it holds, which cannot be taken for an offset. -/
inductive KeepsWord (address : Int) : Prop where
  /-- The same relocation as before, or none as before. -/
  | same (unchanged : relocations[address]? = ctx.image.relocationAt? address)
  /-- A relocation without symbol to the pointer that the word holds. -/
  | rebased (stored : Nat) (type : Int)
    (plain : ctx.image.relocationAt? address = none)
    (added : relocations[address]? = some { addend := stored, type := type })
    (read : ctx.image.readPointer address = .ok (some (stored : Int)))
    (nonzero : signedValue ctx.image.width.bytes stored ≠ 0)
    (large : ctx.limits.maxOffsetToTop.exceededBy
      (signedValue ctx.image.width.bytes stored).natAbs = .ok true)

/-- Other relocations that no way of reading a word notices. -/
structure ReadsAlike : Prop where
  /-- Every word keeps what it stands for. -/
  word : ∀ address, ctx.KeepsWord relocations address
  /-- Searches for references find the same words. -/
  references : ∀ cancelled target,
    (ctx.withRelocations relocations).image.findReferences cancelled target ctx.image.ptr =
      ctx.image.findReferences cancelled target ctx.image.ptr

end Context

/-- A context reads like itself. -/
theorem Context.readsAlike_self (ctx : Context) : ctx.ReadsAlike ctx.image.relocations where
  word _ := .same rfl
  references _ _ := rfl

/-- Relocation lists that agree where `p` holds have the same members there, in the same order. -/
theorem filter_toList_congr {first second : Std.TreeMap Int Relocation}
    {p : Int × Relocation → Bool}
    (same : ∀ address r, p (address, r) = true →
      (first[address]? = some r ↔ second[address]? = some r)) :
    first.toList.filter p = second.toList.filter p := by
  -- Both lists are in the order of their addresses, and such a list is determined by its members.
  have ordered : ∀ map : Std.TreeMap Int Relocation,
      (map.toList.filter p).Pairwise (fun x y => compare x.1 y.1 = .lt) :=
    fun map => (Std.TreeMap.ordered_keys_toList (t := map)).filter p
  have asymmetric : Std.Asymm (fun x y : Int × Relocation => compare x.1 y.1 = .lt) :=
    ⟨fun x y => by simp only [Int.compare_eq_lt]; omega⟩
  refine (ordered first).eq_of_mem_iff (ordered second) fun x => ?_
  obtain ⟨address, r⟩ := x
  rw [List.mem_filter, List.mem_filter, Std.TreeMap.mem_toList_iff_getElem?_eq_some,
    Std.TreeMap.mem_toList_iff_getElem?_eq_some]
  exact and_congr_left (same address r)

namespace Context.ReadsAlike

variable {ctx : Context} {relocations : Std.TreeMap Int Relocation}

/-- The signed reading of a pointer that a word holds. -/
theorem readInt_of_readPointer {img : Image} {address : Int} {stored : Nat}
    (read : img.readPointer address = .ok (some (stored : Int))) :
    img.readInt address img.ptr true = .ok (some (signedValue img.width.bytes stored)) := by
  rw [Image.readPointer] at read
  rw [img.readInt_signed, read]
  rfl

/-- A word leads where it led before. -/
theorem resolve (alike : ctx.ReadsAlike relocations) :
    (ctx.withRelocations relocations).image.resolve = ctx.image.resolve := by
  funext address
  rw [Image.resolve, Image.resolve]
  rw [relocationAt?_withRelocations]
  cases alike.word address with
  | same unchanged =>
    rw [unchanged]
    rfl
  | rebased stored type plain added read =>
    -- The addend is what the word holds, and what the word holds is what it resolved to.
    rw [added, plain, read]
    rfl

/-- A new relocation names no symbol. -/
theorem symbol (alike : ctx.ReadsAlike relocations) (address : Int) :
    ((ctx.withRelocations relocations).image.relocationAt? address).bind (·.symbol) =
      (ctx.image.relocationAt? address).bind (·.symbol) := by
  show relocations[address]?.bind (·.symbol) = _
  cases alike.word address with
  | same unchanged => rw [unchanged]
  | rebased stored type plain added => rw [added, plain]; rfl

/-- The same classes are recognised. -/
theorem identify (alike : ctx.ReadsAlike relocations) :
    ctx.roots.identify (ctx.withRelocations relocations).image = ctx.roots.identify ctx.image := by
  funext address
  rw [Roots.identify, Roots.identify, Roots.kindOf, Roots.kindOf, alike.symbol, alike.resolve]

/-- A word that could be an offset is relocated in both images or in neither. -/
theorem smallInt (alike : ctx.ReadsAlike relocations) (g : Group) (address : Int) :
    g.smallInt (ctx.withRelocations relocations) address = g.smallInt ctx address := by
  rw [Group.smallInt, Group.smallInt]
  show (if !g.block.contains address ctx.image.ptr || relocations[address]?.isSome then _
    else _) = _
  cases alike.word address with
  | same unchanged => rw [unchanged]; rfl
  | rebased stored type plain added read nonzero large =>
    rw [added, plain, readInt_of_readPointer read]
    cases g.block.contains address ctx.image.ptr with
    | false => rfl
    | true =>
      -- Read as an offset, the word was too large before; now it is relocated.
      show Except.ok none = (do if ← ctx.limits.maxOffsetToTop.exceededBy _ then _ else _)
      rw [large]
      rfl

/-- A zero word is relocated in both images or in neither. -/
theorem isNone_of_zero (alike : ctx.ReadsAlike relocations) {address : Int}
    (zero : ctx.image.resolve address = .ok (some 0)) :
    ((ctx.withRelocations relocations).image.relocationAt? address).isNone =
      (ctx.image.relocationAt? address).isNone := by
  show relocations[address]?.isNone = _
  cases alike.word address with
  | same unchanged => rw [unchanged]
  | rebased stored type plain added read nonzero =>
    rw [Image.resolve, plain, read, Except.ok.injEq, Option.some.injEq] at zero
    rw [Int.natCast_eq_zero.mp zero, signedValue_zero] at nonzero
    exact absurd rfl nonzero

/-- A group is taken to start at the same place. -/
theorem groupStart (alike : ctx.ReadsAlike relocations) (count : Nat) (address : Int) :
    (ctx.withRelocations relocations).image.groupStart ctx.limits.maxOffsetToTop count address =
      ctx.image.groupStart ctx.limits.maxOffsetToTop count address := by
  induction count generalizing address with
  | zero => rfl
  | succ count ih =>
    rw [Image.groupStart, Image.groupStart]
    show (if ctx.image.hasSymbolAt address || relocations[address - ctx.image.ptr]?.isSome then _
      else _) = _
    cases alike.word (address - ctx.image.ptr) with
    | same unchanged =>
      rw [unchanged]
      simp only [ih]
      rfl
    | rebased stored type plain added read nonzero large =>
      rw [added, plain, readInt_of_readPointer read]
      cases ctx.image.hasSymbolAt address with
      | true => rfl
      | false =>
        -- The way back stopped at this word as at a large one; now it stops at a relocated one.
        show Except.ok address = (if signedValue _ stored = 0 then _ else _)
        rw [if_neg nonzero, large]
        rfl

/-- Words outside of all blocks keep their relocations. -/
theorem classBound (alike : ctx.ReadsAlike relocations) :
    (ctx.withRelocations relocations).image.classBound = ctx.image.classBound := by
  have outside : relocations.toList.filter (fun x => (ctx.image.blockAt? x.1).isNone) =
      ctx.image.relocations.toList.filter (fun x => (ctx.image.blockAt? x.1).isNone) := by
    refine filter_toList_congr fun address r none => ?_
    cases alike.word address with
    | same unchanged => rw [unchanged]; rfl
    | rebased stored type plain added read =>
      obtain ⟨b, found, -⟩ := Image.blockAt?_of_readInt read
      rw [found] at none
      cases none
  exact congrArg (fun l => (ctx.image.blocks.map (·.size.toNat)).foldr (· + ·) 0 + l.length + 1)
    outside

/-- Relocations against a symbol are the same. -/
theorem namedRelocations (alike : ctx.ReadsAlike relocations) :
    (ctx.withRelocations relocations).image.relocationList.filter
        (fun (_, r) => (r.symbol.bind Kind.ofVtableSymbol?).isSome) =
      ctx.image.relocationList.filter
        (fun (_, r) => (r.symbol.bind Kind.ofVtableSymbol?).isSome) := by
  refine filter_toList_congr fun address r named => ?_
  show relocations[address]? = _ ↔ ctx.image.relocationAt? address = _
  cases alike.word address with
  | same unchanged => rw [unchanged]
  | rebased stored type plain added =>
    rw [added, plain]
    constructor
    · rintro ⟨⟩
      cases named
    · rintro ⟨⟩

end Context.ReadsAlike

end ItaniumRtti
