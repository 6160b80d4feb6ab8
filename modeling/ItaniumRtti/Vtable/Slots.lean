import ItaniumRtti.Vtable.Header

namespace ItaniumRtti

/-!
# Slots

Nothing records how many slots a table has: a run of slots ends at the first word that cannot be
one.

* `isSlotSymbol` — whether an imported symbol can be a function;
* `Slot.isDestructor` — whether a slot holds a destructor;
* `Group.slotAt?` — the slot at an address;
* `Group.slotsFrom` — the run of slots from an address on.
-/

/-- Whether an imported symbol can be a function: symbols of type descriptions and tables
    cannot. -/
def isSlotSymbol (symbol : String) : Bool :=
  ["_ZTI", "_ZTS", "_ZTV", "_ZTT"].all (!hasPrefix · symbol)

/-- Whether a slot holds a destructor, going by the name of its target. -/
def Slot.isDestructor (demangle : Demangler) (s : Slot) : Bool :=
  !s.isPure && s.targetName?.any (namesDestructor demangle)

namespace Group

variable (ctx : Context) (g : Group)

/-- The slot at `address`, if the run does not end there.  It ends at a symbol (though one may
    stand at the `first` slot), at a secondary header, at a zero word unless it stands for the
    deleting destructor that an abstract class lacks, and at a word that is no function. -/
def slotAt? (first afterDestructor : Bool) (address : Int) : Recover (Option Slot) := do
  let img := ctx.image
  if !first && img.hasSymbolAt address then return none
  if g.secondaries then
    if (← g.offsetAt? ctx true address).isSome then return none
  let relocation := img.relocationAt? address
  let symbol := relocation.bind (·.symbol)
  let value ← Recover.lift (img.resolve address)
  if ctx.roots.isPure value symbol then
    return some { address := value, isPure := true, symbol := symbol }
  if value = some 0 && relocation.isNone then
    if !afterDestructor then return none
    if g.secondaries then
      if (← g.headerOf? ctx true address).isSome then return none
    return some {}
  let function := value.bind img.functionAt?
  if function.isSome || value.any img.isCode || (value.isNone && symbol.any isSlotSymbol) then
    return some { address := value, function := function, symbol := symbol }
  return none

/-- The run of at most `words` slots from `address` on. -/
def slotsFrom : Nat → Bool → Bool → Int → Recover (List Slot)
  | 0, _, _, _ => return []
  | words + 1, first, afterDestructor, address => do
    if !g.block.contains address ctx.image.ptr then return []
    match ← g.slotAt? ctx first afterDestructor address with
    | none => return []
    | some slot =>
      let rest ← slotsFrom words false (slot.isDestructor ctx.demangle) (address + ctx.image.ptr)
      return slot :: rest

/-- The run of slots from `address` on, which ends with the block at the latest. -/
def slotsAt (address : Int) : Recover (List Slot) :=
  g.slotsFrom ctx ((g.block.stop - address) / ctx.image.ptr).toNat true false address

end Group

end ItaniumRtti
