import ItaniumRtti.Code.Correlate
import ItaniumRtti.Settings.Basic

namespace ItaniumRtti

/-!
# Queries and answers

* `ImageQuery` — questions about the image alone;
* `ClassQuery` — questions about the class at an address;
* `Query` — anything that can be asked of, or told to, a session;
* `Answer` — what a session says.
-/

/-- A question about the image alone. -/
inductive ImageQuery where
  /-- Its blocks. -/
  | blocks
  /-- The block that an address lies in. -/
  | blockAt (address : Int)
  /-- Whether an address lies in code. -/
  | isCode (address : Int)
  /-- Where its data lies. -/
  | dataRanges
  /-- The bytes at an address. -/
  | readBytes (address length : Int)
  /-- The integer at an address. -/
  | readInt (address size : Int) (signed : Bool)
  /-- The stored pointer at an address. -/
  | readPointer (address : Int)
  /-- The pointer that the running program finds at an address. -/
  | resolve (address : Int)
  /-- The relocation of a word. -/
  | relocationAt (address : Int)
  /-- Its relocations. -/
  | relocations
  /-- The address of a symbol. -/
  | symbolAddress (name : String)
  /-- The symbols whose name begins in a given way. -/
  | symbolsWithPrefix (start : String)
  /-- The symbols at an address. -/
  | symbolsAt (address : Int)
  /-- The function at an address. -/
  | functionAt (address : Int)
  /-- Its functions. -/
  | functions
  /-- Whether it follows the Itanium ABI. -/
  | followsItaniumAbi
  /-- Where bytes stand, in the data or in given ranges. -/
  | findBytes (pattern : List UInt8) (ranges : Option (List AddressRange))
  /-- The data words that point at a target. -/
  | findReferences (target alignment : Int)
  /-- What recognition compares with. -/
  | roots
  /-- The class type_info at an address. -/
  | identify (address : Int)
  /-- Whether a slot stands for a pure virtual function. -/
  | isPure (value : Option Int) (symbol : Option String)
  /-- The stores of a function of the image, or of a given one, with a size limit. -/
  | stores (function : Int ⊕ Function) (maxSize : Bound)
  /-- Whether a function's name is that of a destructor. -/
  | isDestructor (function : Function)

/-- Which table of vtables a correlation uses. -/
inductive VttChoice where
  /-- The class's own. -/
  | own
  /-- None. -/
  | without
  /-- One with the given entries. -/
  | given (entries : List Int)

/-- What to correlate with what. -/
structure Correlation where
  /-- Where the class's vtable starts, unless it is to be located. -/
  vtableAt : Option Int := none
  /-- The table of vtables. -/
  vtt : VttChoice := .own
  /-- The candidates, unless they are all functions of the image. -/
  candidates : Option (List Function) := none
  /-- Whether the code itself is examined rather than the session's table of stores. -/
  fromCode : Bool := false
  /-- Whether stores found earlier are reused and new ones kept. -/
  shareStores : Bool := false

/-- A question about the class at an address. -/
inductive ClassQuery where
  /-- Its mangled name. -/
  | typeName
  /-- The display form of its name. -/
  | name
  /-- Its qualified name in normal form. -/
  | uniqueName
  /-- Its direct bases. -/
  | bases
  /-- Its virtual bases. -/
  | virtualBases
  /-- Its ancestors. -/
  | ancestors
  /-- Its non-virtual bases and their offsets. -/
  | baseOffsets
  /-- Its inheritance flags. -/
  | inheritanceFlags
  /-- Whether it cannot be instantiated. -/
  | isAbstract
  /-- Its vtable. -/
  | vtable
  /-- Its table of vtables. -/
  | vtt
  /-- Its vtable, located afresh. -/
  | locateVtable
  /-- Its vtable at a given address. -/
  | vtableAt (address : Int)
  /-- Its table of vtables, located afresh, for its vtable or the one at a given address. -/
  | locateVtt (vtableAt : Option Int)
  /-- Its table of vtables at a given address. -/
  | vttAt (address : Int) (vtableAt : Option Int)
  /-- Its constructors and destructors. -/
  | correlate (what : Correlation)

/-- Anything that can be asked of, or told to, a session. -/
inductive Query where
  /-- A question about the image. -/
  | image (question : ImageQuery)
  /-- A question about the class at an address. -/
  | ofClass (address : Int) (question : ClassQuery)
  /-- The mark at an address. -/
  | markAt (address : Int)
  /-- Marks the string at an address. -/
  | markString (address : Int)
  /-- The name of the class at an address, which need not be met before. -/
  | nameAt (address : Int)
  /-- The mangled name that a type_info at an address would have. -/
  | typeNameAt (address : Int)
  /-- The class at an address. -/
  | classAt (address : Int)
  /-- The classes met so far. -/
  | classes
  /-- The classes at two addresses. -/
  | compare (first second : Int)
  /-- The class of a given mangled name. -/
  | findTypeInfo (cancelled : Bool) (range : Option AddressRange) (name : String)
  /-- Every class. -/
  | discover
  /-- Asks the session to stop. -/
  | cancel
  /-- Stops if the session was asked to. -/
  | checkCancelled
  /-- Changes a limit. -/
  | setLimit (setting : Setting) (v : Value)

/-- What a session says. -/
inductive Answer where
  /-- It is so, or not. -/
  | flag (value : Bool)
  /-- A number, if there is one. -/
  | number (value : Option Int)
  /-- A text, if there is one. -/
  | text (value : Option String)
  /-- Some addresses. -/
  | addresses (values : List Int)
  /-- Some bytes, if they can be read. -/
  | bytes (value : Option (List UInt8))
  /-- A block, if there is one. -/
  | block (value : Option Block)
  /-- Some blocks. -/
  | blocks (values : List Block)
  /-- Some ranges. -/
  | ranges (values : List AddressRange)
  /-- A relocated word, if there is one. -/
  | relocation (value : Option (Int × Relocation))
  /-- Some relocated words. -/
  | relocations (values : List (Int × Relocation))
  /-- Some symbols. -/
  | symbols (values : List Symbol)
  /-- A function, if there is one. -/
  | function (value : Option Function)
  /-- Some functions. -/
  | functions (values : List Function)
  /-- A mark, if there is one. -/
  | mark (value : Option Mark)
  /-- What recognition compares with. -/
  | roots (value : Roots)
  /-- A type_info and where its name is, if there is one. -/
  | typeInfo (value : Option (TypeInfo × Option Int))
  /-- A class, if there is one. -/
  | classInfo (value : Option TypeInfo)
  /-- Some classes. -/
  | classInfos (values : List TypeInfo)
  /-- The classes at two addresses. -/
  | comparison (first second : Option TypeInfo)
  /-- There is no class at the address asked about. -/
  | noClass
  /-- Direct bases. -/
  | bases (values : List Base)
  /-- Bases and their offsets. -/
  | placedBases (values : List (TypeInfo × Int))
  /-- A vtable, if there is one. -/
  | vtable (value : Option Vtable)
  /-- A table of vtables, if there is one. -/
  | vtt (value : Option Vtt)
  /-- The stores of a function, if there is one. -/
  | stores (values : Option (List VptrStore))
  /-- Constructors and destructors, and the functions that were looked up for them. -/
  | assignments (values : List Assignment) (lookedUp : List Int)

end ItaniumRtti
