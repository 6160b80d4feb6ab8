import ItaniumRtti.Fault
import ItaniumRtti.Text.Decimal

namespace ItaniumRtti

/-!
# Limits

Nothing in a program records how long its tables are, so recovery works within bounds that the
user can change.  A bound may be set to anything; only its use asks for a number.

* `Bound` — a bound as it was set;
* `Bound.exceededBy`, `Bound.capacity`, `Bound.asWhole`, `Bound.codeSize` — its uses;
* `Limits` — all bounds and switches.
-/

/-- A bound as it was set. -/
inductive Bound where
  /-- A whole number. -/
  | whole (n : Int)
  /-- Another number. -/
  | real (x : Real64)
  /-- Something that is no number. -/
  | unfit
  deriving DecidableEq, Repr

namespace Bound

/-- Whether `n` is greater than the bound.  Nothing is greater than what is no number. -/
def exceededBy (n : Int) : Bound → Except Fault Bool
  | .whole most => .ok (most < n)
  | .real (.infinite negative) => .ok negative
  | .real x => .ok (x.floor?.any (· < n))
  | .unfit => .error .unfitLimit

/-- How many items there may be if there is room for `room` of them and their number has to be less
    than the bound before each of them. -/
def capacity (room : Nat) : Bound → Except Fault Nat
  | .whole most => .ok most.toNat
  | .real (.infinite negative) => .ok (if negative then 0 else room)
  | .real x => .ok (x.ceiling?.getD 0).toNat
  | .unfit => .error .unfitLimit

/-- The bound as a number of times that something is tried. -/
def asWhole : Bound → Except Fault Int
  | .whole most => .ok most
  | _ => .error .unfitLimit

/-- How many bytes of code are examined if `room` bytes are there.  A number that is not whole will
    do as long as there is less room, or if it is negative. -/
def codeSize (room : Int) : Bound → Except Fault Int
  | .whole most => .ok (min most room)
  | .real .nan => .ok 0
  | .real (.infinite negative) => .ok (if negative then 0 else room)
  | .real (.finite negative mantissa exponent) =>
    if (Real64.finite negative mantissa exponent).ceiling?.any (room < ·) then .ok room
    else if negative && mantissa ≠ 0 then .ok 0
    else .error .unfitLimit
  | .unfit => .error .unfitLimit

end Bound

/-- Bounds and switches of recovery. -/
structure Limits where
  /-- Most bases that a class may announce. -/
  maxBaseCount : Bound := .whole 256
  /-- Greatest magnitude of a word that is read as an offset rather than as a pointer. -/
  maxOffsetToTop : Bound := .whole 0x100000
  /-- Most offset words before a table's header. -/
  maxVcallOffsets : Bound := .whole 64
  /-- Most entries of a table of vtables. -/
  maxVttEntries : Bound := .whole 512
  /-- Symbol of the function that stands for a pure virtual one; nothing if it was set to something
      that is no text, and so no symbol. -/
  pureVirtualSymbol : Option String := some "__cxa_pure_virtual"
  /-- Beginning of the symbols of type_info structures; nothing if it was set to something that is
      no text. -/
  typeInfoSymbolPrefix : Option String := some "_ZTI"
  /-- Whether discovery also scans the data. -/
  scanData : Bool := true
  /-- Whether constructors and destructors are looked for. -/
  detectConstructors : Bool := true
  /-- Bytes of code examined for a function of unknown size. -/
  maxFunctionSize : Bound := .whole 0x4000
  deriving DecidableEq, Repr

end ItaniumRtti
