import ItaniumRtti.Image.Search
import ItaniumRtti.Recovery.Monad

namespace ItaniumRtti

/-!
# Discovery

* `Recover.discover` — every class of the program: the type_info structures that symbols name and
  the data words that lead to a runtime vtable.
-/

namespace Recover

variable (ctx : Context)

/-- The data words that hold the first word of some kind of type_info, or are relocated against
    its symbol. -/
def scanForClasses : Recover (List Int) := do
  let img := ctx.image
  let stored ← ctx.roots.points.mapM fun (point, _) => do
    checkCancelled ctx
    lift (img.findReferences ctx.cancelled point img.ptr)
  let relocated := img.relocationList.filter fun (_, r) =>
    (r.symbol.bind Kind.ofVtableSymbol?).isSome
  return stored.flatten ++ relocated.map (·.1)

/-- The classes among `addresses`, in order. -/
def classesAmong : List Int → Recover (List TypeInfo)
  | [] => return []
  | address :: rest => do
    checkCancelled ctx
    let found ← classAt? ctx address
    let more ← classesAmong rest
    return found.toList ++ more

/-- Where the defined symbols lead whose names begin like those of type_info structures. -/
def namedClasses : Except Fault (List Int) :=
  match ctx.limits.typeInfoSymbolPrefix with
  | some start => .ok ((ctx.image.symbolsWithPrefix start).map (·.address))
  | none => if ctx.image.symbols.any (·.defined) then .error .unfitLimit else .ok []

/-- Every class of the program, by address. -/
def discover : Recover (List TypeInfo) := do
  let named ← lift (namedClasses ctx)
  let scanned ← if ctx.limits.scanData then scanForClasses ctx else pure []
  classesAmong ctx (Image.addressSet (named ++ scanned))

end Recover

end ItaniumRtti
