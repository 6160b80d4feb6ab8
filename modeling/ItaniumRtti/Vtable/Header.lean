import ItaniumRtti.Hierarchy.Walk
import ItaniumRtti.TypeInfo.Name

namespace ItaniumRtti

/-!
# Headers of sub-tables

A sub-table begins with optional offset words, the offset to the top and a pointer to the owner's
type_info.  Offsets are told from pointers by their magnitude.

* `Group` — a vtable group being read: its owner, its block, and whether secondary tables occur;
* `Group.smallInt` — a word that can be an offset;
* `Group.pointsAtOwner` — a word that refers to the owner;
* `Group.offsetAt?` — the offset to the top of a header at an address;
* `Group.headerFrom` — a header after any number of offset words.
-/

/-- A vtable group being read. -/
structure Group where
  /-- Class that owns the group. -/
  owner : TypeInfo
  /-- Block that holds the group. -/
  block : Block
  /-- Whether tables after the first are looked for. -/
  secondaries : Bool

/-- A header that was found. -/
structure Header where
  /-- Address of the offset to the top. -/
  address : Int
  /-- Offset to the top. -/
  offsetToTop : Int
  /-- Offset words before the header. -/
  vcallOffsets : List Int
  deriving DecidableEq, Repr

/-- Whether tables after the first can occur: the class or an ancestor has virtual bases or
    describes its bases in the general way.  A class whose only base stands at offset zero
    describes it as plain whatever that base's own bases are, so the whole hierarchy counts. -/
def TypeInfo.hasSecondaries (ctx : Context) (t : TypeInfo) : Recover Bool := do
  if !(← t.virtualBases ctx).isEmpty then return true
  let ancestors ← t.ancestors ctx
  (t :: ancestors).anyM fun node => do
    if node.kind = .general then return !(← node.bases ctx).isEmpty else return false

namespace Group

variable (ctx : Context) (g : Group)

/-- The signed word at `address`, if it can be an offset: in the block, not relocated and within
    the limit. -/
def smallInt (address : Int) : Except Fault (Option Int) := do
  let ptr := ctx.image.ptr
  if !g.block.contains address ptr || (ctx.image.relocationAt? address).isSome then
    return none
  match ← ctx.image.readInt address ptr true with
  | none => return none
  | some value =>
    if ← ctx.limits.maxOffsetToTop.exceededBy value.natAbs then return none
    return some value

/-- Whether the word at `address` refers to the owner: by its symbol, by its address, or through
    another type_info of the same name. -/
def pointsAtOwner (address : Int) : Recover Bool := do
  if !g.block.contains address ctx.image.ptr then return false
  match (ctx.image.relocationAt? address).bind (·.symbol) with
  | some symbol =>
    if symbol = typeInfoPrefix ++ (← g.owner.typeName ctx) then return true
  | none => pure ()
  match ← Recover.lift (ctx.image.resolve address) with
  | none => return false
  | some target =>
    if target = 0 then return false
    if target = g.owner.address then return true
    match ← Recover.lift (ctx.roots.identify ctx.image target) with
    | none => return false
    | some other =>
      let name ← Recover.nameOf ctx other
      if name = "" then return false
      return name = (← g.owner.typeName ctx)

/-- The offset to the top of the header at `address`.  A secondary table's is not zero. -/
def offsetAt? (secondary : Bool) (address : Int) : Recover (Option Int) := do
  match ← Recover.lift (g.smallInt ctx address) with
  | none => return none
  | some offset =>
    if secondary && offset = 0 then return none
    if ← g.pointsAtOwner ctx (address + ctx.image.ptr) then return some offset
    return none

/-- The header that stands at `address` or follows it after fewer than `tries` offset words.  No
    symbol stands between, though one may stand at the `first` word. -/
def headerFrom (secondary : Bool) : Nat → Bool → Int → Recover (Option Header)
  | 0, _, _ => return none
  | tries + 1, first, address => do
    if !first && ctx.image.hasSymbolAt address then return none
    match ← g.offsetAt? ctx secondary address with
    | some offset => return some ⟨address, offset, []⟩
    | none =>
      match ← Recover.lift (g.smallInt ctx address) with
      | none => return none
      | some value =>
        let header ← headerFrom secondary tries false (address + ctx.image.ptr)
        return header.map fun h => { h with vcallOffsets := value :: h.vcallOffsets }

/-- The header of a table that starts at `start`. -/
def headerOf? (secondary : Bool) (start : Int) : Recover (Option Header) := do
  let most ← Recover.lift ctx.limits.maxVcallOffsets.asWhole
  g.headerFrom ctx secondary (most + 1).toNat true start

end Group

end ItaniumRtti
