import ItaniumRtti.Hierarchy.Descriptor

namespace ItaniumRtti

/-!
# Walks over the base graph

The base graph of an untrusted program may have cycles, so every walk remembers where it was.

* `Image.classBound` — more than the number of addresses that can be classes;
* `Recover.edgesFrom` — the edges below a list of edges, in the order of a depth-first walk;
* `TypeInfo.edges` — every edge that can be reached from a class;
* `TypeInfo.ancestors` — every class that can be reached;
* `TypeInfo.virtualBases` — every class that is somewhere a virtual base;
* `TypeInfo.baseOffsets` — the non-virtual bases with their offsets in the object.
-/

/-- A number above the number of addresses that can be classes: an address is recognised by a
    word that lies in a block, or outside of all blocks and is relocated. -/
def Image.classBound (img : Image) : Nat :=
  (img.blocks.map (·.size.toNat)).foldr (· + ·) 0 +
    (img.relocationList.filter fun (address, _) => (img.blockAt? address).isNone).length + 1

/-- The classes of a list in the order in which they first occur. -/
def firstOccurrences (classes : List TypeInfo) : List TypeInfo :=
  classes.foldl (fun seen t => if seen.any (·.address == t.address) then seen else seen ++ [t]) []

namespace Recover

variable (ctx : Context)

/-- The edges that a depth-first walk meets from the pending ones on, when the classes `seen` have
    been entered before.  `fuel` bounds the number of classes entered. -/
def edgesFrom : Nat → List Int → List Base → Recover (List Base)
  | 0, _, pending => return pending
  | fuel + 1, seen, pending =>
    let isOld := fun (edge : Base) => seen.contains edge.target.address
    let old := pending.takeWhile isOld
    match pending.dropWhile isOld with
    | [] => return old
    | edge :: rest => do
      let below ← edge.target.bases ctx
      let more ← edgesFrom fuel (edge.target.address :: seen) (below ++ rest)
      return old ++ edge :: more

/-- The non-virtual bases below the class at `place` in the object, appended to those `found`.
    `path` holds the classes entered on the way; `fuel` bounds its length. -/
def offsetsBelow : Nat → TypeInfo → Int → List Int → List (TypeInfo × Int) →
    Recover (List (TypeInfo × Int))
  | 0, _, _, _, found => return found
  | fuel + 1, owner, place, path, found => do
    let bases ← owner.bases ctx
    bases.foldlM (fun found base =>
      let key := (base.target, place + base.offset)
      if base.isVirtual || path.contains base.target.address || found.contains key then
        return found
      else
        offsetsBelow fuel base.target key.2 (base.target.address :: path) (found ++ [key])) found

end Recover

namespace TypeInfo

variable (ctx : Context) (t : TypeInfo)

/-- Every edge that can be reached from the class, in the order in which a depth-first walk that
    enters each class once meets them. -/
def edges : Recover (List Base) := do
  Recover.edgesFrom ctx ctx.image.classBound [t.address] (← t.bases ctx)

/-- The other classes that can be reached from the class, in the order of a depth-first walk. -/
def ancestors : Recover (List TypeInfo) :=
  return (firstOccurrences ((← t.edges ctx).map (·.target))).filter (·.address ≠ t.address)

/-- The classes that are a virtual base of the class or of an ancestor, in the order in which a
    depth-first walk first meets them as such. -/
def collectVirtualBases : Recover (List TypeInfo) :=
  return firstOccurrences (((← t.edges ctx).filter (·.isVirtual)).map (·.target))

/-- The virtual bases of the class, direct or not.  They are collected once. -/
def virtualBases : Recover (List TypeInfo) :=
  Recover.remember (·.virtualBases[t.address]?)
    (fun classes known =>
      { known with virtualBases := known.virtualBases.insert t.address classes })
    (t.collectVirtualBases ctx)

/-- The bases that are reached through non-virtual edges only, with their offset in the complete
    object.  A base may occur at several offsets. -/
def baseOffsets : Recover (List (TypeInfo × Int)) :=
  Recover.offsetsBelow ctx ctx.image.classBound t 0 [t.address] []

end TypeInfo

end ItaniumRtti
