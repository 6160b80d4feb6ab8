import ItaniumRtti.Vtable.Parse

namespace ItaniumRtti

/-!
# Where a vtable is

* `Image.groupStart` — the start of the group with a given primary header;
* `TypeInfo.bestVtable` — the best vtable among candidate headers;
* `TypeInfo.locateVtable` — the vtable of a class, by its symbol or by a search;
* `TypeInfo.vtable` — the same, located once;
* `TypeInfo.isAbstract` — whether the class cannot be instantiated.
-/

/-- Prefix of the symbol of a class's vtable. -/
def vtablePrefix : String := "_ZTV"

/-- The address of the first offset word before `address`, going back over at most `count` words
    that can be offsets and are not zero. -/
def Image.groupStart (img : Image) (limit : Bound) : Nat → Int → Except Fault Int
  | 0, address => return address
  | count + 1, address => do
    let before := address - img.ptr
    if img.hasSymbolAt address || (img.relocationAt? before).isSome then
      return address
    match ← img.readInt before img.ptr true with
    | none => return address
    | some value =>
      if value = 0 then return address
      if ← limit.exceededBy value.natAbs then return address
      groupStart img limit count before

namespace TypeInfo

variable (ctx : Context) (t : TypeInfo)

/-- The vtable with the primary header at `header`: a zero word that is not relocated. -/
def vtableWithHeader? (header : Int) : Recover (Option Vtable) := do
  let img := ctx.image
  if (img.relocationAt? header).isSome then return none
  if (← Recover.lift (img.readInt header img.ptr true)) ≠ some 0 then return none
  let most ← Recover.lift ctx.limits.maxVcallOffsets.asWhole
  let start ← Recover.lift (img.groupStart ctx.limits.maxOffsetToTop most.toNat header)
  let found ← t.vtableAt? ctx start
  return found.filter fun v => v.primary?.any (·.header == header)

/-- The first vtable with slots in its primary table among those that `references` to the class
    give, or else `fallback`, or else the first vtable at all. -/
def bestVtable : Option Vtable → List Int → Recover (Option Vtable)
  | fallback, [] => return fallback
  | fallback, reference :: rest => do
    match ← t.vtableWithHeader? ctx (reference - ctx.image.ptr) with
    | none => bestVtable fallback rest
    | some v =>
      if v.primary?.any (!·.slots.isEmpty) then return some v
      else bestVtable (fallback.or (some v)) rest

/-- The vtable that the class's vtable symbol leads to. -/
def vtableBySymbol? : Recover (Option Vtable) := do
  let name ← t.typeName ctx
  if name = "" then return none
  match ctx.image.symbolAddress? (vtablePrefix ++ name) with
  | none => return none
  | some address => t.vtableAt? ctx address

/-- The vtable of the class: the one that its symbol leads to, or else one whose primary header
    refers to the class. -/
def locateVtable : Recover Vtable := do
  match ← t.vtableBySymbol? ctx with
  | some v => return v
  | none =>
    let references ← Recover.lift
      (ctx.image.findReferences ctx.cancelled t.address ctx.image.ptr)
    return (← t.bestVtable ctx none references).getD .missing

/-- The vtable of the class, located once. -/
def vtable : Recover Vtable :=
  Recover.remember (·.vtables[t.address]?)
    (fun v known => { known with vtables := known.vtables.insert t.address v })
    (t.locateVtable ctx)

end TypeInfo

/-- Whether a pending class, or a base that it inherits its functions from, has a pure slot; the
    classes `seen` have been asked before.  `fuel` bounds the number of classes asked. -/
def Recover.anyAbstract (ctx : Context) : Nat → List Int → List TypeInfo → Recover Bool
  | 0, _, _ => return false
  | fuel + 1, seen, pending =>
    match pending.dropWhile (fun t => seen.contains t.address) with
    | [] => return false
    | t :: rest => do
      let v ← t.vtable ctx
      if v.isValid then
        if v.hasPure then return true
        anyAbstract ctx fuel (t.address :: seen) rest
      else
        let bases ← t.bases ctx
        anyAbstract ctx fuel (t.address :: seen) (bases.map (·.target) ++ rest)

/-- Whether the class cannot be instantiated: its vtable has a pure slot or, if it has no vtable,
    a direct base is abstract. -/
def TypeInfo.isAbstract (ctx : Context) (t : TypeInfo) : Recover Bool :=
  Recover.anyAbstract ctx (ctx.image.classBound + 1) [] [t]

end ItaniumRtti
