import ItaniumRtti.TypeInfo.Basic

namespace ItaniumRtti

/-!
# Base classes

* `Base` — an edge from a class to one of its direct bases;
* `Base.ofFlags` — an edge from the word that packs its offset and flags;
* `Base.flags` — that word.
-/

/-- A direct base of a class. -/
structure Base where
  /-- The base class. -/
  target : TypeInfo
  /-- Offset of the base sub-object; for a virtual base, where the vtable keeps that offset. -/
  offset : Int := 0
  /-- Whether the base is virtual. -/
  isVirtual : Bool := false
  /-- Whether the base is public. -/
  isPublic : Bool := true
  deriving DecidableEq, Repr

namespace Base

/-- The base with the given packed word: bit zero says virtual, bit one public, and the signed
    offset starts at bit eight. -/
def ofFlags (target : TypeInfo) (word : Int) : Base where
  target := target
  offset := word / 256
  isVirtual := word % 2 == 1
  isPublic := word / 2 % 2 == 1

/-- The packed word of a base. -/
def flags (b : Base) : Int :=
  256 * b.offset + 2 * (if b.isPublic then 1 else 0) + (if b.isVirtual then 1 else 0)

end Base

end ItaniumRtti
