import ItaniumRtti.Code.Detector
import ItaniumRtti.Vtable.Vtt

namespace ItaniumRtti

/-!
# Constructors and destructors

A constructor or destructor of a class stores an address point of the class's vtable into the
object it is given.  A table of vtables tells which of its stores belong to base sub-objects.

* `Attribution` — a store and the class whose vtable pointer it installs;
* `Assignment` — a function recognised as a constructor or destructor of a class;
* `Recover.storesOf` — the stores of a function, found once;
* `TypeInfo.subobjectOwner` — the class whose sub-object a vtable pointer belongs to;
* `TypeInfo.attributeEntries`, `TypeInfo.attributeStores` — the attribution of a function's stores;
* `TypeInfo.assign` — the functions of a class among candidates;
* `TypeInfo.correlate` — the functions of a class and of the bases that its table of vtables names.
-/

/-- What a function does to objects of a class. -/
inductive Role where
  /-- Builds them. -/
  | constructor
  /-- Tears them down. -/
  | destructor
  deriving DecidableEq, Repr

/-- The word for a role. -/
def Role.name : Role → String
  | .constructor => "constructor"
  | .destructor => "destructor"

/-- A store and the class whose vtable pointer it installs. -/
structure Attribution where
  /-- Address of the instruction. -/
  site : Int
  /-- The pointer stored. -/
  value : Int
  /-- Address of the class. -/
  classAddress : Int
  /-- Name of the class. -/
  className : String := ""
  /-- Entry of the table of vtables that the store matches. -/
  vttIndex : Option Nat := none
  deriving DecidableEq, Repr

/-- A function recognised as a constructor or destructor of a class. -/
structure Assignment where
  /-- The function. -/
  function : Function
  /-- Address of the class. -/
  classAddress : Int
  /-- Name of the class. -/
  className : String := ""
  /-- What the function does. -/
  role : Role := .constructor
  /-- The stores that tell. -/
  stores : List Attribution := []
  deriving DecidableEq, Repr

/-- Constructors before destructors, and each by address. -/
def Assignment.le (a b : Assignment) : Bool :=
  match a.role, b.role with
  | .constructor, .destructor => true
  | .destructor, .constructor => false
  | _, _ => a.function.address ≤ b.function.address

/-- What a function does, going by its name alone. -/
def Role.ofFunction (demangle : Demangler) (f : Function) : Role :=
  if namesDestructor demangle f.name then .destructor else .constructor

/-- The stores of a function into the object it is given.  The detector is asked once. -/
def Recover.storesOf (ctx : Context) (detector : Detector) (f : Function) :
    Recover (List VptrStore) := do
  match (← get).stores.found[f.address]? with
  | some stores => return stores
  | none =>
    checkCancelled ctx
    let stores ← Recover.consult detector f
    modify fun known => { known with stores := known.stores.enter f stores }
    return stores.filter (·.onThis)

/-- The first class whose vtable contains `value`. -/
def Recover.firstVtableWith (ctx : Context) (value : Int) :
    List TypeInfo → Recover (Option TypeInfo)
  | [] => return none
  | t :: rest => do
    if (← t.vtable ctx).contains value then return some t else firstVtableWith ctx value rest

namespace TypeInfo

variable (ctx : Context) (t : TypeInfo)

/-- The class whose sub-object the vtable pointer `value` belongs to: the one that a table of the
    class's vtable serves, or else the first ancestor whose vtable contains it. -/
def subobjectOwner (v : Vtable) (value : Int) : Recover TypeInfo := do
  match v.tableContaining? value with
  | some index =>
    match if index = 0 then none else v.tables[index]?.bind (·.base) with
    | none => return t
    | some base => return (← Recover.classAt? ctx base).getD t
  | none => return (← Recover.firstVtableWith ctx value (← t.ancestors ctx)).getD t

/-- The stores that match the entries of a table of vtables from `index` on, with the classes they
    belong to, and the stores that match none.  Each entry takes the first store of its value whose
    site is not taken yet. -/
def attributeEntries (v : Vtable) :
    Nat → List Int → List VptrStore → Recover (List (Attribution × TypeInfo) × List VptrStore)
  | _, [], unused => return ([], unused)
  | index, entry :: rest, unused =>
    match unused.find? (·.value == entry) with
    | none => attributeEntries v (index + 1) rest unused
    | some s => do
      let target ← if index = 0 then pure t else t.subobjectOwner ctx v entry
      let attribution : Attribution :=
        { site := s.site, value := s.value, classAddress := target.address,
          className := ← target.name ctx, vttIndex := some index }
      let (more, left) ←
        attributeEntries v (index + 1) rest (unused.filter (·.site != s.site))
      return ((attribution, target) :: more, left)

/-- The attribution to the class itself of the stores of one of `points`. -/
def attributeOwn (points : List Int) (stores : List VptrStore) : Recover (List Attribution) := do
  let name ← t.name ctx
  return (stores.filter fun s => points.contains s.value).map fun s =>
    { site := s.site, value := s.value, classAddress := t.address, className := name }

/-- The attribution of a function's stores, and the classes that they belong to.  With a table of
    vtables its entries come first; what is left belongs to the class itself. -/
def attributeStores (v : Vtable) (entries : List Int) (points : List Int)
    (stores : List VptrStore) :
    Recover (List Attribution × List TypeInfo) := do
  let (matched, left) ← t.attributeEntries ctx v 0 entries stores
  let own ← t.attributeOwn ctx points left
  return (matched.map (·.1) ++ own, matched.map (·.2))

/-- The candidates that store one of `points` into their object, as functions of the class, and
    the classes that their stores belong to. -/
def assign (v : Vtable) (entries : List Int) (points : List Int) (detector : Detector) :
    List Function → Recover (List Assignment × List TypeInfo)
  | [] => return ([], [])
  | f :: rest => do
    Recover.checkCancelled ctx
    let stores ← Recover.storesOf ctx detector f
    if !stores.any (fun s => points.contains s.value) then
      assign v entries points detector rest
    else
      let (attributions, classes) ← t.attributeStores ctx v entries points stores
      let assignment : Assignment :=
        { function := f, classAddress := t.address, className := ← t.name ctx,
          role := .ofFunction ctx.demangle f, stores := attributions }
      let (assignments, more) ← assign v entries points detector rest
      return (assignment :: assignments, classes ++ more)

/-- The functions of the class among candidates that store its primary address point. -/
def assignPrimary (detector : Detector) (candidates : List Function) :
    Recover (List Assignment) := do
  let v ← t.vtable ctx
  match v.primary? with
  | none => return []
  | some primary =>
    let (assignments, _) ← t.assign ctx v [] [primary.addressPoint] detector candidates
    return assignments.mergeSort Assignment.le

end TypeInfo

/-- The functions that are not assigned yet. -/
def unassigned (assignments : List Assignment) (candidates : List Function) : List Function :=
  candidates.filter fun f => !assignments.any (·.function.address == f.address)

/-- The functions of each of `classes`, among the candidates that those before left. -/
def Recover.assignEach (ctx : Context) (detector : Detector) :
    List TypeInfo → List Function → Recover (List Assignment)
  | [], _ => return []
  | t :: rest, candidates => do
    let assignments ← t.assignPrimary ctx detector candidates
    let more ← assignEach ctx detector rest (unassigned assignments candidates)
    return assignments ++ more

/-- The functions of the class with vtable `v` among candidates, constructors first, and then those
    of the base classes that its table of vtables `vtt` names.  With a table of vtables every
    address point counts, without one the primary one alone. -/
def TypeInfo.correlate (ctx : Context) (t : TypeInfo) (v : Vtable) (vtt : Option Vtt)
    (candidates : List Function) (detector : Detector) : Recover (List Assignment) := do
  match v.primary? with
  | none => return []
  | some primary =>
    let entries := (vtt.map (·.entries)).getD []
    let points := if entries.isEmpty then [primary.addressPoint] else v.addressPoints
    let (assignments, classes) ← t.assign ctx v entries points detector candidates
    let bases := (firstOccurrences classes).filter (·.address ≠ t.address)
    let more ← Recover.assignEach ctx detector bases (unassigned assignments candidates)
    return assignments.mergeSort Assignment.le ++ more

end ItaniumRtti
