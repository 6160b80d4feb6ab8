import ItaniumRtti.Analysis.Class
import ItaniumRtti.Analysis.Discover
import ItaniumRtti.Journal.Note

namespace ItaniumRtti

/-!
# Analysis of a program

* `Job` — what to analyse and how;
* `Job.keep` — the classes that pass the filter;
* `Job.reports` — the reports of classes, one after the other;
* `Job.run` — the hierarchy of a program, with a journal of the run.
-/

/-- What to analyse and how. -/
structure Job where
  /-- The program. -/
  image : Image
  /-- The program as a whole, if that is known from elsewhere. -/
  info : Option ImageInfo := none
  /-- Display forms of symbols. -/
  demangle : Demangler
  /-- Bounds of recovery. -/
  limits : Limits := {}
  /-- Finds stores, if a detector knows the architecture. -/
  detector : Option Detector
  /-- The only class wanted; all classes if none or empty. -/
  filter : Option String := none
  /-- Whether the user asked to stop. -/
  cancelled : Bool := false

namespace Job

/-- What the questions of the analysis read. -/
def context (job : Job) : Context where
  image := job.image
  roots := .ofImage job.image job.limits.pureVirtualSymbol
  demangle := job.demangle
  limits := job.limits
  cancelled := job.cancelled

/-- The program as a whole. -/
def imageInfo (job : Job) : ImageInfo :=
  job.info.getD
    { arch := job.image.arch, bits := 8 * job.image.ptr, endian := job.image.order.name,
      itaniumAbi := job.image.followsItaniumAbi }

/-- Whether a class has the wanted name, in any of its forms. -/
def wants (ctx : Context) (wanted : String) (t : TypeInfo) : Recover Bool := do
  let name ← t.name ctx
  let uniqueName ← t.uniqueName ctx
  let typeName ← t.typeName ctx
  return wanted = name || wanted = uniqueName || wanted = typeName

/-- The classes of a list that are wanted. -/
def keep (ctx : Context) (wanted : Option String) (classes : List TypeInfo) :
    Recover (List TypeInfo) :=
  match wanted.filter (· ≠ "") with
  | none => return classes
  | some name => classes.filterM (wants ctx name)

/-- The reports of `classes`, in order, up to the first one that a fault other than a malformed
    class prevents. -/
def reports (ctx : Context) (detector : Option Detector) : List TypeInfo → Knowledge →
    List ClassReport × Option Fault
  | [], _ => ([], none)
  | t :: rest, known =>
    match t.report ctx detector known with
    | .ok report known =>
      let (more, fault) := reports ctx detector rest known
      (report :: more, fault)
    | .error fault _ => ([], some fault)

/-! ### The journal of a run -/

/-- The note at the start of a timed piece of work. -/
def started (what : String) (operation : Option String) : Note :=
  { level := .debug, message := "Started: " ++ what, operation }

/-- The note at the end of a timed piece of work.  Time is not measured. -/
def completed (what : String) (operation : Option String) : Note :=
  { level := .info, message := "Completed: " ++ what ++ " (0.000 sec)", operation }

/-- The note about a class that could not be recovered completely. -/
def complaint (report : ClassReport) : Note :=
  { level := .warning, message := "Malformed type_info: " ++ report.error,
    typeInfo := some (signedHex report.address) }

/-- The note at the end of a successful run. -/
def summary (h : Hierarchy) : Note :=
  let malformed :=
    if h.failed.isEmpty then "" else " (" ++ decimal h.failed.length ++ " malformed)"
  { level := .info,
    message := "Recovered " ++ decimal h.classes.length ++ " classes" ++ malformed }

/-- The analysis of `classes`, and its part of the journal. -/
def recoverClasses (job : Job) (classes : List TypeInfo) (known : Knowledge) :
    Except Fault Hierarchy × List Note :=
  let ctx := job.context
  let detector := if job.limits.detectConstructors then job.detector else none
  let missing : List Note :=
    if job.limits.detectConstructors && job.detector.isNone then
      [{ level := .warning, message := "No vtable-pointer store detector for " ++ job.image.arch }]
    else []
  let (reports, fault) := reports ctx detector classes known
  let journal := missing ++ [started "class recovery" none] ++
    (reports.filter (·.error ≠ "")).map complaint ++ [completed "class recovery" none]
  match fault with
  | some fault => (.error fault, journal)
  | none =>
    let h : Hierarchy :=
      { info := job.imageInfo, classes := reports, pureAddress := ctx.roots.pureAddress }
    (.ok h, journal ++ [summary h])

/-- The hierarchy of the program, and the journal of the run. -/
def run (job : Job) : Except Fault Hierarchy × List Note :=
  let ctx := job.context
  if !job.image.followsItaniumAbi then
    (.ok { info := job.imageInfo },
      [{ level := .warning,
         message := "Image was not built with an Itanium C++ ABI toolchain; skipping" }])
  else
    let noRoots : List Note :=
      if ctx.roots.points.isEmpty then
        [{ level := .debug,
           message := "No __cxxabiv1 type_info vtables defined; relying on relocations" }]
      else []
    let discovery := "type_info discovery"
    let journal := noRoots ++
      [started discovery (some "discover"), completed discovery (some "discover")]
    match Recover.discover ctx .initial with
    | .error fault _ => (.error fault, journal)
    | .ok classes known =>
      let journal := journal ++
        [{ level := .info,
           message := "Discovered " ++ decimal classes.length ++ " class type_info structures" }]
      match keep ctx job.filter classes known with
      | .error fault _ => (.error fault, journal)
      | .ok classes known =>
        let (result, more) := job.recoverClasses classes known
        (result, journal ++ more)

end Job

end ItaniumRtti
