import ItaniumRtti.Code.Store
import ItaniumRtti.Hierarchy.Base
import ItaniumRtti.Image.Marks
import ItaniumRtti.Name.Demangled
import ItaniumRtti.Recovery.Limits
import ItaniumRtti.Vtable.Basic

namespace ItaniumRtti

/-!
# Recovery

A question about a program is answered from a `Context`, which a question never changes, and from
the `Knowledge` that earlier questions left behind.

* `Context` — the image, the roots, the demangler, the limits and whether to stop;
* `NameForm`, `NameCells` — the names of classes, each in several forms;
* `Knowledge` — string marks, recognised classes, and the answers that later questions reuse;
* `Recover` — a question: it may stop with a fault, and what it learned before that is kept;
* `Recover.remember` — asks a question once, and keeps the answer;
* `Recover.checkCancelled` — stops if the user asked to;
* `Recover.consult` — asks a detector.
-/

/-- What a question reads and never changes. -/
structure Context where
  /-- The program. -/
  image : Image
  /-- What recognition compares with. -/
  roots : Roots
  /-- Display forms of symbols. -/
  demangle : Demangler
  /-- Bounds of recovery. -/
  limits : Limits
  /-- Whether the user asked to stop. -/
  cancelled : Bool

/-- The forms of a class's name. -/
inductive NameForm where
  /-- The mangled name. -/
  | mangled
  /-- The display form. -/
  | display
  /-- The qualified name in normal form. -/
  | unique
  deriving DecidableEq, Repr

/-- Names of classes, by the addresses of the classes. -/
structure NameCells where
  /-- Mangled names. -/
  mangled : Std.TreeMap Int String := ∅
  /-- Display forms. -/
  display : Std.TreeMap Int String := ∅
  /-- Qualified names in normal form. -/
  unique : Std.TreeMap Int String := ∅

namespace NameCells

/-- The name in a given form that is kept for the class at `address`. -/
def find (cells : NameCells) (address : Int) : NameForm → Option String
  | .mangled => cells.mangled[address]?
  | .display => cells.display[address]?
  | .unique => cells.unique[address]?

/-- The names with one more kept. -/
def insert (cells : NameCells) (address : Int) (name : String) : NameForm → NameCells
  | .mangled => { cells with mangled := cells.mangled.insert address name }
  | .display => { cells with display := cells.display.insert address name }
  | .unique => { cells with unique := cells.unique.insert address name }

end NameCells

/-- What earlier questions left behind. -/
structure Knowledge where
  /-- Strings read as names. -/
  marks : Marks := []
  /-- Classes met so far. -/
  classes : Std.TreeMap Int Kind := ∅
  /-- Names of the classes asked about. -/
  names : NameCells := {}
  /-- Direct bases of the classes asked about. -/
  bases : Std.TreeMap Int (List Base) := ∅
  /-- Virtual bases of the classes asked about, direct or not. -/
  virtualBases : Std.TreeMap Int (List TypeInfo) := ∅
  /-- Vtables of the classes asked about. -/
  vtables : Std.TreeMap Int Vtable := ∅
  /-- Tables of vtables of the classes asked about. -/
  vtts : Std.TreeMap Int (Option Vtt) := ∅
  /-- Vtable pointer stores of the functions examined. -/
  stores : StoreBook := {}

/-- Nothing is known yet. -/
def Knowledge.initial : Knowledge := {}

/-- A question that uses and extends the knowledge, and may stop with a fault. -/
abbrev Recover := EStateM Fault Knowledge

namespace Recover

/-- The answer of a computation that needs no knowledge. -/
def lift {α : Type} (answer : Except Fault α) : Recover α :=
  fun known =>
    match answer with
    | .ok value => .ok value known
    | .error fault => .error fault known

instance : MonadLift (Except Fault) Recover where
  monadLift := lift

/-- The answer that is known already, or else the answer of `q`, which is kept.  A question that is
    stopped leaves nothing behind here. -/
def remember {α : Type} (find : Knowledge → Option α) (keep : α → Knowledge → Knowledge)
    (q : Recover α) : Recover α := do
  match find (← get) with
  | some a => return a
  | none =>
    let a ← q
    modify (keep a)
    return a

/-- Stops if the user asked to. -/
def checkCancelled (ctx : Context) : Recover Unit :=
  if ctx.cancelled then throw .cancelled else pure ()

/-- What the detector finds in `f`.  Every question put to a detector is put here, and the book
    notes it, whether or not the answer is entered. -/
def consult (detector : Detector) (f : Function) : Recover (List VptrStore) := do
  let stores ← lift (detector f)
  modify fun known => { known with stores := known.stores.note f }
  return stores

/-- The class type_info at `address`, which is from now on among the classes met. -/
def classAt? (ctx : Context) (address : Int) : Recover (Option TypeInfo) := do
  match ← lift (ctx.roots.identify ctx.image address) with
  | none => return none
  | some t =>
    modify fun known => { known with classes := known.classes.insert t.address t.kind }
    return some t

/-- The classes met so far, by address. -/
def classesMet : Recover (List TypeInfo) :=
  return (← get).classes.toList.map fun (address, kind) => ⟨address, kind⟩

end Recover

end ItaniumRtti
