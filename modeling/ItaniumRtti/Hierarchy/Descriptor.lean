import ItaniumRtti.Recovery.Monad

namespace ItaniumRtti

/-!
# Base descriptors

A class with one plain base holds a pointer to it; a class with other bases holds a flag word, a
count and one descriptor for each base.

* `Recover.baseAt` — the class that a base pointer leads to;
* `Recover.descriptors` — a run of descriptors;
* `TypeInfo.readBases` — the direct bases of a class, in descriptor order;
* `TypeInfo.bases` — the same, read once;
* `TypeInfo.inheritanceFlags` — the flag word.
-/

namespace Recover

variable (ctx : Context)

/-- Stops because `field` of the class `owner` is malformed. -/
def malformed {α : Type} (owner : TypeInfo) (field : Int) (what : Malformation) : Recover α :=
  throw (.malformed ⟨owner.address, field, what⟩)

/-- The class that the base pointer in `field` leads to. -/
def baseAt (owner : TypeInfo) (field : Int) : Recover TypeInfo := do
  match ← lift (ctx.image.resolve field) with
  | none => malformed owner field .noBasePointer
  | some target =>
    match ← classAt? ctx target with
    | none => malformed owner field (.notAClass target)
    | some t => return t

/-- The bases of `count` descriptors from `field` on: a base pointer, then the offset and flags. -/
def descriptors (owner : TypeInfo) : Nat → Int → Recover (List Base)
  | 0, _ => return []
  | count + 1, field => do
    let ptr := ctx.image.ptr
    let target ← baseAt ctx owner field
    match ← lift (ctx.image.readInt (field + ptr) ptr true) with
    | none => malformed owner (field + ptr) .unreadableFlags
    | some word =>
      let rest ← descriptors owner count (field + 2 * ptr)
      return .ofFlags target word :: rest

end Recover

namespace TypeInfo

variable (ctx : Context) (t : TypeInfo)

/-- The direct bases of the class, in descriptor order. -/
def readBases : Recover (List Base) := do
  let header := t.address + 2 * ctx.image.ptr
  match t.kind with
  | .simple => return []
  | .single => return [{ target := ← Recover.baseAt ctx t header }]
  | .general =>
    match ← Recover.lift (ctx.image.readInt (header + 4) 4 false) with
    | none => Recover.malformed t (header + 4) .unreadableCount
    | some count =>
      if ← Recover.lift (ctx.limits.maxBaseCount.exceededBy count) then
        Recover.malformed t (header + 4) (.tooManyBases count)
      else
        Recover.descriptors ctx t count.toNat (header + 8)

/-- The direct bases of the class.  They are read once; a later change of the limits does not
    change them. -/
def bases : Recover (List Base) :=
  Recover.remember (·.bases[t.address]?)
    (fun bases known => { known with bases := known.bases.insert t.address bases })
    (t.readBases ctx)

/-- The flags that tell whether a base is repeated or shared; zero if the class has none. -/
def inheritanceFlags : Except Fault Int := do
  match t.kind with
  | .general => return ((← ctx.image.readInt (t.address + 2 * ctx.image.ptr) 4 false).getD 0) % 4
  | _ => return 0

end TypeInfo

end ItaniumRtti
