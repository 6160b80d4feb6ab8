import ItaniumRtti.Fault
import ItaniumRtti.Image.Block
import Std.Data.TreeMap

namespace ItaniumRtti

/-!
# Stores of vtable pointers

* `VptrStore` — an instruction that writes a constant pointer;
* `Detector` — finds the stores of a function;
* `StoreBook` — the stores found so far, and which functions were examined.
-/

/-- An instruction that writes a pointer-sized constant into memory. -/
structure VptrStore where
  /-- Address of the instruction. -/
  site : Int
  /-- The pointer written. -/
  value : Int
  /-- Whether it is written into the object that the function was given. -/
  onThis : Bool := true
  deriving DecidableEq, Repr

/-- Finds the constant pointers that a function stores. -/
abbrev Detector := Function → Except Fault (List VptrStore)

/-- The stores found so far. -/
structure StoreBook where
  /-- For each function examined, its stores into the object it was given. -/
  found : Std.TreeMap Int (List VptrStore) := ∅
  /-- The functions that a detector was asked about, latest last. -/
  asked : List Int := []
  /-- Whether every function of the program has been examined. -/
  complete : Bool := false

/-- The book after a detector was asked about `f`. -/
def StoreBook.note (book : StoreBook) (f : Function) : StoreBook :=
  { book with asked := book.asked ++ [f.address] }

/-- The book with the stores of `f` entered. -/
def StoreBook.enter (book : StoreBook) (f : Function) (stores : List VptrStore) : StoreBook :=
  { book with found := book.found.insert f.address (stores.filter (·.onThis)) }

end ItaniumRtti
