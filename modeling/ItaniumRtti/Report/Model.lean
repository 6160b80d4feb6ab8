import ItaniumRtti.Code.Correlate

namespace ItaniumRtti

/-!
# Reports

What an analysis says about a program.

* `ImageInfo` — the program as a whole;
* `ClassReport` — one class;
* `Hierarchy` — all classes;
* `VtableReport.ofVtable` — what is reported of a vtable.
-/

/-- The program as a whole. -/
structure ImageInfo where
  /-- Path of the file. -/
  path : String := ""
  /-- Size of the file. -/
  size : Int := 0
  /-- Name of the architecture. -/
  arch : String := "unknown"
  /-- Bits of a pointer. -/
  bits : Int := 0
  /-- Name of the byte order. -/
  endian : String := "little"
  /-- Whether the program follows the Itanium ABI. -/
  itaniumAbi : Bool := false
  /-- Digest of the file. -/
  sha256 : String := ""
  deriving DecidableEq, Repr

/-- A direct base of a class. -/
structure BaseReport where
  /-- Address of the base class. -/
  address : Int
  /-- Name of the base class. -/
  name : String := ""
  /-- Offset of the base sub-object. -/
  offset : Int := 0
  /-- Whether the base is virtual. -/
  isVirtual : Bool := false
  /-- Whether the base is public. -/
  isPublic : Bool := true
  deriving DecidableEq, Repr

/-- A virtual function. -/
structure SlotReport where
  /-- Address of the function. -/
  address : Option Int := none
  /-- Name of the function. -/
  name : String := ""
  /-- Whether the function is pure. -/
  isPure : Bool := false
  deriving DecidableEq, Repr

/-- A sub-table. -/
structure TableReport where
  /-- Address of the first slot. -/
  addressPoint : Int
  /-- Offset to the top. -/
  offsetToTop : Int := 0
  /-- Base class that the table serves. -/
  base : Option Int := none
  /-- Slots in order. -/
  slots : List SlotReport := []
  deriving DecidableEq, Repr

/-- A vtable. -/
structure VtableReport where
  /-- First word. -/
  address : Int
  /-- Sub-tables in order. -/
  tables : List TableReport := []
  deriving DecidableEq, Repr

/-- Everything recovered for one class.  If its base descriptors, or those of a class it derives
    from, are malformed, `error` says how and the other fields hold what was known before. -/
structure ClassReport where
  /-- Address of the type_info. -/
  address : Int
  /-- How the class describes its bases. -/
  kind : Kind
  /-- Mangled name. -/
  typeName : String := ""
  /-- Display form of the name. -/
  name : String := ""
  /-- Direct bases. -/
  bases : List BaseReport := []
  /-- Addresses of the virtual bases. -/
  virtualBases : List Int := []
  /-- Whether the class cannot be instantiated. -/
  isAbstract : Bool := false
  /-- The vtable, if there is one. -/
  vtable : Option VtableReport := none
  /-- Entries of the table of vtables. -/
  vtt : List Int := []
  /-- Constructors and destructors. -/
  assignments : List Assignment := []
  /-- What is malformed; empty if nothing is. -/
  error : String := ""
  deriving DecidableEq, Repr

/-- Everything recovered from a program. -/
structure Hierarchy where
  /-- The program as a whole. -/
  info : ImageInfo := {}
  /-- Its classes. -/
  classes : List ClassReport := []
  /-- Address of the function that stands for a pure virtual one. -/
  pureAddress : Option Int := none
  /-- Seconds that the analysis took. -/
  duration : Float := 0

/-- The classes that could not be recovered completely. -/
def Hierarchy.failed (h : Hierarchy) : List ClassReport :=
  h.classes.filter (·.error ≠ "")

/-- What is reported of a slot. -/
def SlotReport.ofSlot (s : Slot) : SlotReport where
  address := s.address
  name := s.targetName?.getD ""
  isPure := s.isPure

/-- What is reported of a vtable. -/
def VtableReport.ofVtable (v : Vtable) : VtableReport where
  address := v.address
  tables := v.tables.map fun t =>
    { addressPoint := t.addressPoint, offsetToTop := t.offsetToTop, base := t.base,
      slots := t.slots.map .ofSlot }

end ItaniumRtti
