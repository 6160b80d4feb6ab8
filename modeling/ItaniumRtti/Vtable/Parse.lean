import ItaniumRtti.Vtable.Slots

namespace ItaniumRtti

/-!
# Vtable groups

* `Group.tablesFrom` — the sub-tables from an address on;
* `attachBases` — which base each secondary table serves;
* `TypeInfo.vtableAt?` — the vtable of a class at a given address.
-/

/-- The address after the last slot. -/
def SubTable.stop (ptr : Int) (t : SubTable) : Int :=
  t.addressPoint + ptr * t.slots.length

/-- The sub-table of the class `owner` with the given header and slots. -/
def SubTable.ofHeader (ptr : Int) (owner : TypeInfo) (start : Int) (h : Header)
    (slots : List Slot) : SubTable where
  start := start
  header := h.address
  addressPoint := h.address + 2 * ptr
  vcallOffsets := h.vcallOffsets
  entries := .offsetToTop h.offsetToTop :: .typeInfo owner.address :: slots.map .slot

/-- At most `count` sub-tables from `address` on, each where the slots of the one before end.  A
    symbol ends the group, though one may stand at the `first` table. -/
def Group.tablesFrom (ctx : Context) (g : Group) : Nat → Bool → Int → Recover (List SubTable)
  | 0, _, _ => return []
  | count + 1, first, address => do
    Recover.checkCancelled ctx
    if !first && ctx.image.hasSymbolAt address then return []
    match ← g.headerOf? ctx (!first) address with
    | none => return []
    | some header =>
      let ptr := ctx.image.ptr
      let slots ← g.slotsAt ctx (header.address + 2 * ptr)
      let table := SubTable.ofHeader ptr g.owner address header slots
      let rest ← tablesFrom ctx g count false (table.stop ptr)
      return table :: rest

/-- The secondary tables with the base that each serves: a non-virtual base at the place that the
    offset to the top gives, or else the next virtual base.  No base serves twice. -/
def attachBases (placed : List (Int × Int)) (virtuals : List Int) :
    List Int → List SubTable → List SubTable
  | _, [] => []
  | used, t :: rest =>
    let here := (placed.find? fun (base, offset) =>
      offset == -t.offsetToTop && !used.contains base).map (·.1)
    let base := here.or (virtuals.find? fun base => !used.contains base)
    { t with base := base } :: attachBases placed virtuals (base.toList ++ used) rest

namespace TypeInfo

variable (ctx : Context) (t : TypeInfo)

/-- The tables of the class's group with their bases.  The first table serves the class itself. -/
def withBases (tables : List SubTable) : Recover (List SubTable) := do
  match tables with
  | primary :: second :: rest =>
    let placed := (← t.baseOffsets ctx).filter (·.2 ≠ 0)
    let virtuals ← t.virtualBases ctx
    return primary ::
      attachBases (placed.map fun (base, offset) => (base.address, offset))
        (virtuals.map (·.address)) [] (second :: rest)
  | _ => return tables

/-- The vtable of the class whose group starts at `address`, if a primary table of the class
    stands there. -/
def vtableAt? (address : Int) : Recover (Option Vtable) := do
  match (ctx.image.blockAt? address).filter (·.initialized) with
  | none => return none
  | some block =>
    let secondaries ← t.hasSecondaries ctx
    let count ← if secondaries then pure (1 + (← t.ancestors ctx).length) else pure 1
    let tables ← (Group.mk t block secondaries).tablesFrom ctx count true address
    match tables.getLast? with
    | none => return none
    | some last =>
      let attached ← t.withBases ctx tables
      return some
        { address, typeInfo := t.address, tables := attached, stop := last.stop ctx.image.ptr }

end TypeInfo

end ItaniumRtti
