import ItaniumRtti.Image.Block

namespace ItaniumRtti

/-!
# Vtables

The vtable of a class is a group of sub-tables: one for the class itself and one for each base
sub-object that needs its own.

* `Slot`, `Entry` — the words of a sub-table;
* `SubTable` — a header and its slots;
* `Vtable` — a group of sub-tables in memory order;
* `Vtable.tableContaining?` — the sub-table whose slots cover an address;
* `Vtt` — the vtable pointers that a class installs while it is being built.
-/

/-- A virtual function pointer. -/
structure Slot where
  /-- Resolved target; none if it lies outside the image or the slot is null. -/
  address : Option Int := none
  /-- Whether the target stands for a pure virtual function. -/
  isPure : Bool := false
  /-- Function that starts at the target; never given for a pure slot. -/
  function : Option Function := none
  /-- Relocation symbol of the word. -/
  symbol : Option String := none
  deriving DecidableEq, Repr

/-- The name under which a slot's target is known. -/
def Slot.targetName? (s : Slot) : Option String :=
  match s.function with
  | some f => some f.name
  | none => s.symbol

/-- A word of a sub-table from its header on. -/
inductive Entry where
  /-- Distance from the sub-object to the complete object. -/
  | offsetToTop (value : Int)
  /-- Pointer to the type_info of the class that owns the table. -/
  | typeInfo (address : Int)
  /-- Virtual function pointer. -/
  | slot (slot : Slot)
  deriving DecidableEq, Repr

/-- A table for the class itself or for one base sub-object. -/
structure SubTable where
  /-- First word, offset words included. -/
  start : Int
  /-- Address of the offset to the top. -/
  header : Int
  /-- Address of the first slot, which a constructor stores into the object. -/
  addressPoint : Int
  /-- Offset words before the header. -/
  vcallOffsets : List Int := []
  /-- Header and slots. -/
  entries : List Entry := []
  /-- The base class whose sub-object the table serves; none for the first table. -/
  base : Option Int := none
  deriving DecidableEq, Repr

namespace SubTable

/-- The offset to the top that the header gives, zero if the first word is none. -/
def offsetToTop (t : SubTable) : Int :=
  match t.entries with
  | .offsetToTop value :: _ => value
  | _ => 0

/-- The slots in order. -/
def slots (t : SubTable) : List Slot :=
  t.entries.filterMap fun
    | .slot s => some s
    | _ => none

end SubTable

/-- A group of sub-tables in memory order. -/
structure Vtable where
  /-- First word of the group. -/
  address : Int
  /-- Class that owns the group. -/
  typeInfo : Int
  /-- Sub-tables in memory order. -/
  tables : List SubTable := []
  /-- The address after the last slot. -/
  stop : Int := 0
  deriving DecidableEq, Repr

namespace Vtable

/-- Stands for the vtable of a class that has none. -/
def missing : Vtable := { address := -1, typeInfo := -1 }

variable (v : Vtable)

/-- Whether there is a table at all. -/
def isValid : Bool :=
  !v.tables.isEmpty

/-- The table for the class itself. -/
def primary? : Option SubTable :=
  v.tables.head?

/-- Whether a slot stands for a pure virtual function. -/
def hasPure : Bool :=
  v.tables.any fun t => t.slots.any (·.isPure)

/-- The address point of each table. -/
def addressPoints : List Int :=
  v.tables.map (·.addressPoint)

/-- The function of each slot of each table. -/
def functionTables : List (List (Option Function)) :=
  v.tables.map fun t => t.slots.map (·.function)

/-- The functions in the order in which they first occur, each address once. -/
def functions : List Function :=
  (v.functionTables.flatMap (·.filterMap id)).foldl
    (fun seen f => if seen.any (·.address == f.address) then seen else seen ++ [f]) []

/-- Whether the function that starts at `address` occurs. -/
def containsFunction (address : Int) : Bool :=
  v.functionTables.any fun fs => fs.any fun f => f.any (·.address == address)

/-- Whether `address` lies in the group. -/
def contains (address : Int) : Bool :=
  v.isValid && v.address ≤ address && address < v.stop

/-- The index of the first table, counted from `index`, whose slots cover `address`.  A table
    without slots covers its own address point. -/
def indexCovering? (stop address : Int) : List SubTable → Nat → Option Nat
  | [], _ => none
  | t :: rest, index =>
    let next := (rest.head?.map (·.start)).getD stop
    if t.addressPoint ≤ address && address < max next (t.addressPoint + 1) then some index
    else indexCovering? stop address rest (index + 1)

/-- The index of the table whose slots cover `address`. -/
def tableContaining? (address : Int) : Option Nat :=
  indexCovering? v.stop address v.tables 0

end Vtable

/-- A table of vtables: the vtable pointers that a class with virtual bases installs while its
    sub-objects are being built. -/
structure Vtt where
  /-- First word. -/
  address : Int
  /-- Class that owns the table. -/
  typeInfo : Int
  /-- Vtable pointers in order. -/
  entries : List Int := []
  deriving DecidableEq, Repr

/-- Whether there is an entry at all. -/
def Vtt.isValid (v : Vtt) : Bool :=
  !v.entries.isEmpty

end ItaniumRtti
