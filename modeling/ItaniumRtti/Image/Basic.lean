import ItaniumRtti.Bytes.Order
import ItaniumRtti.Fault
import ItaniumRtti.Image.Block
import ItaniumRtti.Text.Affix
import Std.Data.TreeMap

namespace ItaniumRtti

/-!
# Images

An `Image` is a program as it lies in memory.  It never changes.

* `PointerWidth` — four or eight bytes;
* `Image` — blocks in address order, symbols, and the relocation of each relocated word;
* `Image.ofParts` — an image from its parts in any order;
* `Image.blockAt?`, `Image.relocationAt?`, `Image.symbolAddress?`, `Image.functionAt?` — lookups;
* `Image.dataRanges` — where data can be searched for;
* `Image.followsItaniumAbi` — whether the program comes from a toolchain with this ABI.
-/

/-- The size of a pointer. -/
inductive PointerWidth where
  /-- Four bytes. -/
  | narrow
  /-- Eight bytes. -/
  | wide
  deriving DecidableEq, Repr

/-- The number of bytes of a pointer. -/
def PointerWidth.bytes : PointerWidth → Nat
  | .narrow => 4
  | .wide => 8

/-- The width with the given number of bytes. -/
def PointerWidth.ofBytes (size : Int) : Except Fault PointerWidth :=
  if size = 4 then .ok .narrow else if size = 8 then .ok .wide else .error (.pointerSize size)

/-- Number of different pointer values. -/
def PointerWidth.span (w : PointerWidth) : Nat :=
  Nat.pow 256 w.bytes

/-- A half-open range of addresses. -/
structure AddressRange where
  /-- First address. -/
  start : Int
  /-- The address after the last one. -/
  stop : Int
  deriving DecidableEq, Repr

/-- A program as it lies in memory. -/
structure Image where
  /-- Size of a pointer. -/
  width : PointerWidth
  /-- Byte order of integers. -/
  order : ByteOrder
  /-- Name of the architecture. -/
  arch : String
  /-- Whether the program follows the Itanium ABI, where that is known in advance. -/
  abi : Option Bool
  /-- Blocks in address order. -/
  blocks : List Block
  /-- Symbols in the order in which they were given. -/
  symbols : List Symbol
  /-- The relocation of each relocated word. -/
  relocations : Std.TreeMap Int Relocation
  /-- Blocks stand in address order. -/
  ordered : blocks.Pairwise (fun a b => a.start ≤ b.start)

namespace Image

/-- Blocks in address order; blocks with the same start keep their order. -/
def orderBlocks (blocks : List Block) : List Block :=
  blocks.mergeSort (fun a b => decide (a.start ≤ b.start))

theorem pairwise_orderBlocks (blocks : List Block) :
    (orderBlocks blocks).Pairwise (fun a b => a.start ≤ b.start) := by
  have sorted := @List.pairwise_mergeSort Block (fun a b => decide (a.start ≤ b.start))
    (by intro a b c; simp only [decide_eq_true_eq]; omega)
    (by intro a b; simp only [Bool.or_eq_true, decide_eq_true_eq]; omega) blocks
  exact sorted.imp (fun h => of_decide_eq_true h)

/-- The relocation of each word; of several for one word the last counts. -/
def indexRelocations (relocations : List (Int × Relocation)) : Std.TreeMap Int Relocation :=
  relocations.foldl (fun index r => index.insert r.1 r.2) ∅

/-- The image with the given parts, which may come in any order. -/
def ofParts (width : PointerWidth) (order : ByteOrder) (arch : String) (abi : Option Bool)
    (blocks : List Block) (symbols : List Symbol) (relocations : List (Int × Relocation)) :
    Image where
  width := width
  order := order
  arch := arch
  abi := abi
  blocks := orderBlocks blocks
  symbols := symbols
  relocations := indexRelocations relocations
  ordered := pairwise_orderBlocks blocks

variable (img : Image)

/-- The number of bytes of a pointer, as a distance between addresses. -/
def ptr : Int :=
  img.width.bytes

/-! ### Blocks -/

/-- The block that `address` lies in: the last one that starts at or before it, if it reaches
    that far. -/
def blockAt? (address : Int) : Option Block :=
  (img.blocks.filter (fun b => b.start ≤ address)).getLast?.filter (·.contains address 1)

/-- Whether `address` lies in a block of code. -/
def isCode (address : Int) : Bool :=
  (img.blockAt? address).any (·.executable)

/-- The blocks of initialised data, in address order. -/
def dataRanges : List AddressRange :=
  (img.blocks.filter (fun b => b.initialized && !b.executable)).map fun b => ⟨b.start, b.stop⟩

/-! ### Symbols, functions and relocations -/

/-- The relocation of the word at `address`. -/
def relocationAt? (address : Int) : Option Relocation :=
  img.relocations[address]?

/-- Every relocated word with its relocation, in address order. -/
def relocationList : List (Int × Relocation) :=
  img.relocations.toList

/-- The address of the first defined symbol of the given name. -/
def symbolAddress? (name : String) : Option Int :=
  (img.symbols.find? (fun s => s.name == name && s.defined)).map (·.address)

/-- The defined symbols whose name begins with `start`. -/
def symbolsWithPrefix (start : String) : List Symbol :=
  img.symbols.filter (fun s => s.defined && hasPrefix start s.name)

/-- The defined symbols at `address`. -/
def symbolsAt (address : Int) : List Symbol :=
  img.symbols.filter (fun s => s.defined && s.address == address)

/-- Whether a defined symbol stands at `address`. -/
def hasSymbolAt (address : Int) : Bool :=
  img.symbols.any (fun s => s.defined && s.address == address)

/-- Whether a symbol gives a function its entry; address zero never does. -/
def entersFunction (s : Symbol) : Bool :=
  s.isFunction && s.defined && s.address != 0

/-- The function that starts at `address`, under the first name given to it. -/
def functionAt? (address : Int) : Option Function :=
  (img.symbols.find? (fun s => entersFunction s && s.address == address)).map fun s =>
    ⟨s.address, s.name, s.size⟩

/-- `address` in its place among increasing addresses, once. -/
def insertAddress (address : Int) : List Int → List Int
  | [] => [address]
  | a :: rest =>
    if address < a then address :: a :: rest
    else if address = a then a :: rest
    else a :: insertAddress address rest

/-- The addresses of a list in increasing order, each once. -/
def addressSet (addresses : List Int) : List Int :=
  addresses.foldl (fun set a => insertAddress a set) []

/-- Every function, in address order. -/
def functions : List Function :=
  (addressSet ((img.symbols.filter entersFunction).map (·.address))).filterMap img.functionAt?

/-- Whether the program comes from a toolchain with the Itanium ABI: as said in advance, or else
    because a mangled name or its runtime's namespace occurs among the symbols. -/
def followsItaniumAbi : Bool :=
  img.abi.getD (img.symbols.any fun s => hasPrefix "_Z" s.name || hasPart "__cxxabiv1" s.name)

end Image

end ItaniumRtti
