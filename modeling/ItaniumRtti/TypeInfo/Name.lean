import ItaniumRtti.Image.Range
import ItaniumRtti.Image.Search
import ItaniumRtti.Recovery.Monad

namespace ItaniumRtti

/-!
# Names of classes

* `Recover.typeNameAt` — the mangled name that a type_info points at;
* `TypeInfo.typeName`, `TypeInfo.name`, `TypeInfo.uniqueName` — the names of a class, which are
  kept;
* `Recover.nameOf` — the mangled name of a type_info that may not have been met as a class;
* `Image.nameHits` — where a name stands as a whole string;
* `Recover.findTypeInfo` — the class of a given mangled name.
-/

/-- A mangled name without the mark of types that only their own file can name. -/
def withoutLocalMark (name : String) : String :=
  (dropPrefix? "*" name).getD name

namespace Recover

variable (ctx : Context)

/-- The mark of the string at `address`, made if it is new. -/
def markString (address : Int) : Recover (Option Mark) :=
  modifyGet fun known =>
    let (mark, marks) := ctx.image.markString known.marks address
    (mark, { known with marks := marks })

/-- The mangled name that the type_info at `address` points at, without the local mark; empty if
    the pointer leads to no string that can be marked. -/
def typeNameAt (address : Int) : Recover String := do
  match ← lift (ctx.image.resolve (address + ctx.image.ptr)) with
  | none => return ""
  | some place =>
    match (← get).marks.at? place with
    | some mark => return withoutLocalMark mark.text
    | none => return ((← markString ctx place).map (withoutLocalMark ·.text)).getD ""

end Recover

namespace TypeInfo

variable (ctx : Context) (t : TypeInfo)

/-- The name of the class in a given form: the one that is kept, or else the answer of `q`. -/
def rememberName (form : NameForm) (q : Recover String) : Recover String :=
  Recover.remember (·.names.find t.address form)
    (fun name known => { known with names := known.names.insert t.address name form }) q

/-- The mangled name of the class. -/
def typeName : Recover String :=
  t.rememberName .mangled (Recover.typeNameAt ctx t.address)

/-- The display form of the class's name. -/
def name : Recover String :=
  t.rememberName .display do return displayName ctx.demangle (← t.typeName ctx)

/-- The class's qualified name in normal form. -/
def uniqueName : Recover String :=
  t.rememberName .unique do return ItaniumRtti.uniqueName ctx.demangle (← t.typeName ctx)

end TypeInfo

/-- The mangled name of a type_info that recognition finds.  It is read afresh each time as long as
    the class has not been met. -/
def Recover.nameOf (ctx : Context) (t : TypeInfo) : Recover String := do
  if (← get).classes.contains t.address then t.typeName ctx
  else typeNameAt ctx t.address

/-- The addresses in `range` at which `pattern` stands at the start of the range or after a NUL. -/
def Image.wholeHitsIn (img : Image) (pattern : List UInt8) (range : AddressRange) : List Int :=
  (img.hitsIn pattern range).filter fun hit =>
    hit == range.start || img.readBytes? (hit - 1) 1 == some [0]

namespace Recover

variable (ctx : Context)

/-- The first of the words `references` that is the name field of a class called `name`. -/
def firstNamed (name : String) : List Int → Recover (Option TypeInfo)
  | [] => return none
  | reference :: rest => do
    match ← lift (ctx.roots.identify ctx.image (reference - ctx.image.ptr)) with
    | none => firstNamed name rest
    | some t => if (← nameOf ctx t) = name then return some t else firstNamed name rest

/-- The class whose mangled name is `name`.  The name has to stand exactly once in the data, cut
    to `within` if that is given, and a word that points at it has to be the name field of a class.
    The search stops at once when `cancelled` is set. -/
def findTypeInfo (cancelled : Bool) (within : Option AddressRange) (name : String) :
    Recover (Option TypeInfo) := do
  if name = "" then return none
  let img := ctx.image
  let ranges := match within with
    | none => img.dataRanges
    | some range => intersectRanges img.dataRanges [range]
  if cancelled && !ranges.isEmpty then
    throw .cancelled
  match ranges.flatMap (img.wholeHitsIn (encodeUtf8 name ++ [0])) with
  | [hit] => firstNamed ctx name (← lift (img.findReferences cancelled hit img.ptr))
  | _ => return none

end Recover

end ItaniumRtti
