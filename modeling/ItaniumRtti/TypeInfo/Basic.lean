import ItaniumRtti.Image.Read

namespace ItaniumRtti

/-!
# Type descriptions

The first word of a class's type_info points into the vtable of one of three runtime classes,
which tells how the class describes its bases.

* `Kind` — the three ways of describing bases;
* `TypeInfo` — an address recognised as a class's type_info;
* `Roots` — the addresses that recognition compares with;
* `Roots.identify` — recognition.
-/

/-- How a class describes its bases. -/
inductive Kind where
  /-- No bases. -/
  | simple
  /-- One public, non-virtual base at offset zero. -/
  | single
  /-- Any list of bases. -/
  | general
  deriving DecidableEq, Repr

namespace Kind

/-- Every kind, in the order in which the runtime's vtables are looked up. -/
def all : List Kind := [.simple, .single, .general]

/-- The runtime class whose vtable the first word points into. -/
def runtimeClass : Kind → String
  | .simple => "__class_type_info"
  | .single => "__si_class_type_info"
  | .general => "__vmi_class_type_info"

/-- The symbol of the runtime class's vtable. -/
def vtableSymbol : Kind → String
  | .simple => "_ZTVN10__cxxabiv117__class_type_infoE"
  | .single => "_ZTVN10__cxxabiv120__si_class_type_infoE"
  | .general => "_ZTVN10__cxxabiv121__vmi_class_type_infoE"

/-- The short name of a kind. -/
def label : Kind → String
  | .simple => "BASE"
  | .single => "SINGLE"
  | .general => "MULTIPLE_OR_VIRTUAL"

/-- The kind whose runtime vtable has the given symbol. -/
def ofVtableSymbol? (symbol : String) : Option Kind :=
  all.find? (·.vtableSymbol == symbol)

end Kind

/-- An address recognised as a class's type_info. -/
structure TypeInfo where
  /-- Address of the structure. -/
  address : Int
  /-- How the class describes its bases. -/
  kind : Kind
  deriving DecidableEq, Repr

/-- A type_info in a few words. -/
def TypeInfo.summary (t : TypeInfo) : String :=
  signedHex t.address ++ ", " ++ t.kind.label

/-- The addresses that recognition compares with. -/
structure Roots where
  /-- The value of the first word for each kind whose runtime vtable is defined. -/
  points : List (Int × Kind)
  /-- Address of the function that stands for a pure virtual one. -/
  pureAddress : Option Int
  /-- Symbol of that function. -/
  pureSymbol : Option String
  deriving DecidableEq, Repr

namespace Roots

/-- The points with `address` leading to `kind`, in place if it stood there before. -/
def assignPoint (points : List (Int × Kind)) (address : Int) (kind : Kind) : List (Int × Kind) :=
  if points.any (·.1 == address) then
    points.map fun p => if p.1 == address then (address, kind) else p
  else points ++ [(address, kind)]

/-- The roots of an image: a runtime vtable's address point lies two words after its symbol. -/
def ofImage (img : Image) (pureSymbol : Option String) : Roots where
  points := Kind.all.foldl (fun points kind =>
    match img.symbolAddress? kind.vtableSymbol with
    | some address => assignPoint points (address + 2 * img.ptr) kind
    | none => points) []
  pureAddress := pureSymbol.bind img.symbolAddress?
  pureSymbol := pureSymbol

variable (roots : Roots)

/-- The kind whose first word has the given value. -/
def kindAt? (value : Int) : Option Kind :=
  roots.points.lookup value

/-- Whether a slot with this value and relocation symbol stands for a pure virtual function. -/
def isPure (value : Option Int) (symbol : Option String) : Bool :=
  (symbol.isSome && symbol == roots.pureSymbol) || (value.isSome && value == roots.pureAddress)

/-- The kind of the class at `address`: by name if its first word is relocated against a symbol,
    by value otherwise. -/
def kindOf (img : Image) (address : Int) : Except Fault (Option Kind) :=
  match (img.relocationAt? address).bind (·.symbol) with
  | some symbol => .ok (Kind.ofVtableSymbol? symbol)
  | none =>
    match img.resolve address with
    | .error fault => .error fault
    | .ok value => .ok (value.bind roots.kindAt?)

/-- The class type_info at `address`, if there is one. -/
def identify (img : Image) (address : Int) : Except Fault (Option TypeInfo) :=
  if address < 0 then .ok none
  else match roots.kindOf img address with
    | .error fault => .error fault
    | .ok kind => .ok (kind.map (TypeInfo.mk address))

end Roots

/-- The address of the class's name, which follows the first word. -/
def TypeInfo.nameAddress (img : Image) (t : TypeInfo) : Except Fault (Option Int) :=
  img.resolve (t.address + img.ptr)

end ItaniumRtti
