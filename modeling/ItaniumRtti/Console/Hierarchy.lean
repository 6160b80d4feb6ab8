import ItaniumRtti.Console.Event
import ItaniumRtti.Report.Model

namespace ItaniumRtti

/-!
# Showing a hierarchy

* `ClassReport.label` — the name under which a class is shown;
* `childrenOf`, `branches`, `inheritanceTree` — the inheritance forest;
* `Hierarchy.header`, `Hierarchy.classTable`, `ClassReport.details` — the other parts;
* `Hierarchy.display` — everything.
-/

/-- The name under which a class is shown. -/
def ClassReport.label (c : ClassReport) : String :=
  if c.name ≠ "" then c.name
  else if c.typeName ≠ "" then c.typeName
  else reportHex c.address

/-- The word for a kind. -/
def Kind.shownAs : Kind → String
  | .simple => "base"
  | .single => "single"
  | .general => "multiple/virtual"

/-! ### Inheritance -/

/-- The classes that name the class at `address` as a base, once for each time they do. -/
def childrenOf (classes : List ClassReport) (address : Int) : List ClassReport :=
  classes.flatMap fun c => (c.bases.filter (·.address == address)).map fun _ => c

/-- The label of a class below its base at `address`. -/
def branchLabel (address : Int) (c : ClassReport) : String :=
  let isVirtual := ((c.bases.find? (·.address == address)).map (·.isVirtual)).getD false
  (if isVirtual then Console.styled "ancestry.virtual" "virtual" ++ " " else "") ++ c.label

/-- What hangs below the class at `address`.  A class that is on the way from the root already is
    left out, which bounds the depth. -/
def branches (classes : List ClassReport) : Nat → List Int → Int → List Tree
  | 0, _, _ => []
  | fuel + 1, path, address =>
    ((childrenOf classes address).filter fun c => !path.contains c.address).map fun c =>
      .node (branchLabel address c) (branches classes fuel (c.address :: path) c.address)

/-- Whether none of a class's bases is among `classes`. -/
def ClassReport.isRoot (classes : List ClassReport) (c : ClassReport) : Bool :=
  !c.bases.any fun b => classes.any (·.address == b.address)

/-- The inheritance forest below one root: a tree for each class without listed base. -/
def inheritanceTree (classes : List ClassReport) : Tree :=
  .node (Console.styled "bold" "classes") ((classes.filter (·.isRoot classes)).map fun c =>
    .node c.label (branches classes classes.length [c.address] c.address))

/-! ### The other parts -/

/-- A heading of the image panel, followed by blanks up to a common width. -/
def panelLine (heading : String) (content : String) : String :=
  Console.styled "bold" (heading ++ ":") ++
    String.ofList (List.replicate (14 - heading.length) ' ') ++ content

/-- Seconds with two places. -/
def secondsText (seconds : Float) : String :=
  (Real64.ofFloat seconds).fixed 2 ++ "s"

/-- The program as a whole. -/
def Hierarchy.header (h : Hierarchy) : List Event :=
  let info := h.info
  let lines := [
    panelLine "File" (if info.path = "" then "<memory>" else info.path),
    panelLine "Arch" (info.arch ++ " (" ++ decimal info.bits ++ "-bit, " ++ info.endian ++ ")"),
    panelLine "Itanium ABI" (if info.itaniumAbi then "yes" else "no"),
    panelLine "Classes" (decimal h.classes.length),
    panelLine "Duration" (secondsText h.duration)]
  let digest := if info.sha256 = "" then [] else [panelLine "SHA-256" info.sha256]
  let pure := match h.pureAddress with
    | none => []
    | some address =>
      [panelLine "Pure virtual" (Console.styled "ancestry.address" (reportHex address))]
  [.panel (String.intercalate "\n" (lines ++ digest ++ pure))
    (Console.styled "bold bright_cyan" "Image"), .blank]

/-- The name of a base in the class table. -/
def BaseReport.shownAs (b : BaseReport) : String :=
  if b.isVirtual then Console.styled "ancestry.virtual" ("virtual " ++ b.name) else b.name

/-- The row of a class in the class table. -/
def ClassReport.row (c : ClassReport) : List String :=
  let bases := String.intercalate ", " (c.bases.map (·.shownAs))
  let constructors := (c.assignments.filter (·.role == .constructor)).length
  [reportHex c.address,
   if c.isAbstract then Console.styled "ancestry.abstract" c.label else c.label,
   c.kind.shownAs,
   if bases = "" then "-" else bases,
   match c.vtable with
   | none => "-"
   | some v => reportHex v.address,
   match c.vtable with
   | none => "-"
   | some v => decimal ((v.tables.map (·.slots.length)).foldr (· + ·) 0 : Nat),
   decimal constructors ++ "/" ++ decimal (c.assignments.length - constructors : Nat)]

/-- The class table. -/
def Hierarchy.classTable (h : Hierarchy) : List Event :=
  Console.startSection "Classes" ++
    [.table (.ofRows none none
      ["type_info", "Name", "Kind", "Bases", "Vtable", "Slots", "Ctors/Dtors"]
      ["ancestry.address", "bold"] (h.classes.map (·.row))),
     .blank]

/-- The row of a slot in the table of a vtable. -/
def SlotReport.row (index : Nat) (s : SlotReport) : List Value :=
  [.integer index,
   .text (match s.address with
    | none => "-"
    | some address => reportHex address),
   .text (if s.isPure then "<pure virtual>" else if s.name = "" then "?" else s.name)]

/-- The rows of slots, numbered from `index` on. -/
def slotRows : Nat → List SlotReport → List (List Value)
  | _, [] => []
  | index, s :: rest => s.row index :: slotRows (index + 1) rest

/-- A sub-table, the first one of its vtable or not. -/
def TableReport.display (isFirst : Bool) (t : TableReport) : List Event :=
  let role := if isFirst then "primary"
    else "secondary (offset-to-top " ++ decimal t.offsetToTop ++ ")"
  Console.table (reportHex t.addressPoint ++ " " ++ role) ["#", "Address", "Function"]
    (slotRows 0 t.slots) none ["dim", "ancestry.address", ""]

/-- A vtable. -/
def VtableReport.display (v : VtableReport) : List Event :=
  match v.tables with
  | [] => []
  | first :: rest => first.display true ++ rest.flatMap (·.display false)

/-- The constructors and destructors of a class. -/
def displayAssignments (assignments : List Assignment) : List Event :=
  if assignments.isEmpty then []
  else Console.table "Constructors / destructors" ["Function", "Name", "Role", "Stores"]
    (assignments.map fun a =>
      [.text (reportHex a.function.address),
       .text (if a.function.name = "" then "?" else a.function.name),
       .text a.role.name, .integer a.stores.length])
    none ["ancestry.address", "bold", "", ""]

/-- The vtable, constructors and destructors of a class. -/
def ClassReport.details (c : ClassReport) : List Event :=
  Console.startSection c.label ++
    (match c.vtable with
    | none => []
    | some v => v.display) ++
    displayAssignments c.assignments ++ [.blank]

/-- Everything recovered from a program, with details of each class if they are wanted. -/
def Hierarchy.display (h : Hierarchy) (details : Bool) : List Event :=
  let start := Console.startSection "ANCESTRY -- C++ Class Hierarchy Recovery" ++ h.header
  if h.classes.isEmpty then
    start ++ Console.warning "No class type_info structures recovered"
  else
    start ++ h.classTable ++
      Console.startSection "Inheritance" ++ [.tree (inheritanceTree h.classes), .blank] ++
      (if details then h.classes.flatMap (·.details) else []) ++
      h.failed.flatMap (fun c => Console.warning (c.label ++ ": " ++ c.error)) ++
      Console.divider Console.defaultDivider

end ItaniumRtti
