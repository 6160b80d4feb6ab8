import ItaniumRtti.Vtable.Locate

namespace ItaniumRtti

/-!
# Tables of vtables

The table of vtables of a class with virtual bases lists the vtable pointers that its constructors
install: the class's own first, then those of sub-objects under construction.

* `TypeInfo.vttRegions` — where its entries may point;
* `Recover.vttEntries` — the run of entries from an address on;
* `TypeInfo.vttAt?` — the table at a given address;
* `TypeInfo.locateVtt` — the table of a class, by its symbol or by a search;
* `TypeInfo.vtt` — the same, located once.
-/

/-- Prefix of the symbol of a class's table of vtables. -/
def vttPrefix : String := "_ZTT"

/-- Prefix of the symbols of vtables used while a class is being built. -/
def constructionPrefix : String := "_ZTC"

/-- The addresses of a vtable. -/
def Vtable.range (v : Vtable) : AddressRange := ⟨v.address, v.stop⟩

/-- Whether `address` lies in the range. -/
def AddressRange.contains (r : AddressRange) (address : Int) : Bool :=
  r.start ≤ address && address < r.stop

/-- The entries from `address` on that lead into `regions`, at most `count` of them, up to the end
    of the block or a symbol (though one may stand at the `first` entry). -/
def Recover.vttEntries (ctx : Context) (block : Block) (regions : List AddressRange) :
    Nat → Bool → Int → Recover (List Int)
  | 0, _, _ => return []
  | count + 1, first, address => do
    if !block.contains address ctx.image.ptr then return []
    checkCancelled ctx
    if !first && ctx.image.hasSymbolAt address then return []
    match ← lift (ctx.image.resolve address) with
    | none => return []
    | some value =>
      if !regions.any (·.contains value) then return []
      let rest ← vttEntries ctx block regions count false (address + ctx.image.ptr)
      return value :: rest

namespace TypeInfo

variable (ctx : Context) (t : TypeInfo)

/-- Where entries may point: into the class's vtable, the vtables of its virtual bases, and the
    vtables that are used while it is being built. -/
def vttRegions (v : Vtable) : Recover (List AddressRange) := do
  let inherited ← (← t.virtualBases ctx).mapM (·.vtable ctx)
  let regions := v.range :: (inherited.filter (·.isValid)).map (·.range)
  let name ← t.typeName ctx
  if name = "" then return regions
  let symbols := (ctx.image.symbolsWithPrefix (constructionPrefix ++ name)).filter (·.size ≠ 0)
  return regions ++ symbols.map fun s => ⟨s.address, s.address + s.size⟩

/-- The table of vtables of the class at `address`: there is one if the class has a virtual base
    and the first entry is the primary address point of its vtable `v`. -/
def vttAt? (v : Vtable) (address : Int) : Recover (Option Vtt) := do
  if (← t.virtualBases ctx).isEmpty then return none
  match v.primary?, ctx.image.blockAt? address with
  | some primary, some block =>
    let regions ← t.vttRegions ctx v
    let most ← Recover.lift (ctx.limits.maxVttEntries.capacity block.size.toNat)
    let entries ← Recover.vttEntries ctx block regions most true address
    if entries.head? = some primary.addressPoint then
      return some { address, typeInfo := t.address, entries }
    return none
  | _, _ => return none

/-- The first table of vtables that one of `references` to the primary address point begins. -/
def firstVtt (v : Vtable) : List Int → Recover (Option Vtt)
  | [] => return none
  | reference :: rest => do
    if v.contains reference then firstVtt v rest
    else match ← t.vttAt? ctx v reference with
      | some vtt => return some vtt
      | none => firstVtt v rest

/-- The table of vtables that the class's symbol for it leads to. -/
def vttBySymbol? (v : Vtable) : Recover (Option Vtt) := do
  let name ← t.typeName ctx
  if name = "" then return none
  match ctx.image.symbolAddress? (vttPrefix ++ name) with
  | none => return none
  | some address => t.vttAt? ctx v address

/-- The table of vtables of the class with vtable `v`: the one that its symbol leads to, or else
    one that starts with the primary address point outside the vtable itself. -/
def locateVtt (v : Vtable) : Recover (Option Vtt) := do
  match v.primary? with
  | none => return none
  | some primary =>
    if (← t.virtualBases ctx).isEmpty then return none
    match ← t.vttBySymbol? ctx v with
    | some vtt => return some vtt
    | none =>
      let references ← Recover.lift
        (ctx.image.findReferences ctx.cancelled primary.addressPoint ctx.image.ptr)
      t.firstVtt ctx v references

/-- The table of vtables of the class, located once. -/
def vtt : Recover (Option Vtt) :=
  Recover.remember (·.vtts[t.address]?)
    (fun vtt known => { known with vtts := known.vtts.insert t.address vtt })
    (t.vtable ctx >>= t.locateVtt ctx)

end TypeInfo

end ItaniumRtti
