import ItaniumRtti.Text.Number

namespace ItaniumRtti

/-!
# Faults

A negative result ("this is not a vtable", "this name is ambiguous") is `none`.  A `Fault` stops
the query that meets it:

* `Malformation` — what is wrong with a base descriptor, with its wording in `reason`;
* `Malformed` — a malformation, the class it belongs to and the field that shows it;
* `Fault` — everything that stops a query, with its wording in `message?`.
-/

/-- What is wrong with a field of a class's base descriptors. -/
inductive Malformation where
  /-- The base pointer is unreadable or relocated against an undefined symbol. -/
  | noBasePointer
  /-- The base pointer leads to something that is no class type_info. -/
  | notAClass (target : Int)
  /-- The number of bases cannot be read. -/
  | unreadableCount
  /-- More bases are announced than the limits allow. -/
  | tooManyBases (count : Int)
  /-- The word with a base's offset and flags cannot be read. -/
  | unreadableFlags
  deriving DecidableEq, Repr

/-- The wording of a malformation, as the end of a sentence about the descriptor. -/
def Malformation.reason : Malformation → String
  | .noBasePointer => "holds no resolvable base pointer"
  | .notAClass target => "points at " ++ signedHex target ++ ", which is not a class type_info"
  | .unreadableCount => "has an unreadable base count"
  | .tooManyBases count => "has base count " ++ decimal count
  | .unreadableFlags => "has unreadable offset flags"

/-- A malformed base descriptor: the class, the offending field and what is wrong with it. -/
structure Malformed where
  /-- Address of the derived class's type_info. -/
  owner : Int
  /-- Address of the field that is wrong. -/
  descriptor : Int
  /-- What is wrong with the field. -/
  malformation : Malformation
  deriving DecidableEq, Repr

/-- The full sentence about a malformed descriptor. -/
def Malformed.message (m : Malformed) : String :=
  "type_info at " ++ signedHex m.owner ++ ": descriptor at " ++ signedHex m.descriptor ++ " " ++
    m.malformation.reason

/-- Why a query stopped without an answer. -/
inductive Fault where
  /-- The user asked for the work to stop. -/
  | cancelled
  /-- A class's base descriptors do not describe classes. -/
  | malformed (what : Malformed)
  /-- An image was given a pointer size other than four or eight. -/
  | pointerSize (size : Int)
  /-- No store detector knows the image's architecture. -/
  | noDetector (arch : String)
  /-- An integer was to be converted with a byte order that is neither little nor big. -/
  | byteOrder
  /-- A reference search was asked for a target that does not fit in a pointer. -/
  | targetRange
  /-- A reference search was asked for multiples of zero. -/
  | zeroAlignment
  /-- A limit was needed that is set to something of the wrong type. -/
  | unfitLimit
  deriving DecidableEq, Repr

/-- The wording of a fault.  Faults of plain arithmetic and of limits have none. -/
def Fault.message? : Fault → Option String
  | .cancelled => some "analysis cancelled"
  | .malformed what => some what.message
  | .pointerSize size => some ("unsupported pointer size: " ++ decimal size)
  | .noDetector arch => some ("unsupported architecture for store detection: " ++ arch)
  | .byteOrder => none
  | .targetRange => none
  | .zeroAlignment => none
  | .unfitLimit => none

end ItaniumRtti
