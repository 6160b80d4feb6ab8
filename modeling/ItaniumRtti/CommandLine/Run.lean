import ItaniumRtti.Analysis.Run
import ItaniumRtti.CommandLine.Arguments
import ItaniumRtti.Console.Hierarchy
import ItaniumRtti.Elf.Load
import ItaniumRtti.Report.Document
import ItaniumRtti.Settings.Load
import ItaniumRtti.Value.Json

namespace ItaniumRtti.CommandLine

/-!
# A run of the program

* `Tools` — what a run needs from outside;
* `Outcome` — what a run leads to;
* `analyse` — an analysis with given options;
* `run` — a run with a given command line.
-/

/-- What a run needs from outside. -/
structure Tools where
  /-- Display forms of symbols. -/
  demangle : Demangler
  /-- The program's code. -/
  listing : Listing
  /-- The time of the run. -/
  time : String := ""

/-- What a run prints. -/
inductive Printed where
  /-- Nothing. -/
  | nothing
  /-- A text. -/
  | text (text : String)
  /-- A report. -/
  | report (h : Hierarchy)

/-- What a run leads to. -/
structure Outcome where
  /-- The exit code: zero for success, one for a failed analysis, two for a wrong command line or
      wrong settings. -/
  exitCode : Nat
  /-- What is shown on the terminal. -/
  events : List Event := []
  /-- What is printed. -/
  printed : Printed := .nothing
  /-- What is wrong with the command line. -/
  usage : Option UsageFault := none
  /-- Notes of the run. -/
  journal : List Note := []
  /-- The files after the run. -/
  files : Files

/-- The name of the program, as its title and as its command. -/
def programTitle : String := "Ancestry"

/-- The name of the command. -/
def programName : String := "ancestry"

/-- The version of the program. -/
def programVersion : String := "1.0.0"

/-- How to use the program. -/
def helpText : String :=
  String.intercalate "\n" [
    "Usage: ancestry [OPTIONS] PATH",
    "",
    "  Ancestry -- recover C++ class hierarchies from a binary.",
    "",
    "  PATH is an ELF executable or shared object built with an Itanium C++ ABI",
    "  toolchain (GCC, Clang).",
    "",
    "  Examples:",
    "",
    "      ancestry ./build/app",
    "      ancestry ./libwidgets.so --class ns::Widget",
    "      ancestry ./build/app --json > classes.json",
    "",
    "Options:",
    "  -o, --output PATH      Write a JSON report to this path.",
    "  -c, --class TEXT       Only report the class with this (demangled or",
    "                         mangled) name.",
    "  -w, --workers INTEGER  Worker threads for per-class recovery.",
    "  --config FILE          TOML configuration file.",
    "  --no-ctors             Skip constructor/destructor correlation.",
    "  -v, --verbose          Enable verbose/debug output.",
    "  --json                 Output results as JSON to stdout.",
    "  --version              Show the version and exit.",
    "  --help                 Show this message and exit."]

/-- The settings with what options change. -/
def applyOptions (o : Options) (settings : Settings) : Settings :=
  let settings := if o.verbose then settings.update .logLevel (.text "DEBUG") else settings
  let settings := match o.workers with
    | none => settings
    | some n => settings.update .maxWorkers (.integer (max 1 n))
  if o.noConstructors then settings.update .detectConstructors (.bool false) else settings

/-- The files after the journal's file was opened, unless the settings for the journal do not have
    fitting types or its file cannot be opened. -/
def openJournal? (settings : Settings) (files : Files) : Option Files :=
  match settings .logLevel, settings .logFile with
  | .text level, .text path =>
    if !(Level.ofName level).isOk then none
    else if path = "" then some files
    else match files.read path with
      | .ok _ => some files
      | .error _ => (files.write path .empty).toOption
  | .text level, file => if (Level.ofName level).isOk && !file.isSet then some files else none
  | _, _ => none

/-- Whether a value can be the number of workers. -/
def countsWorkers : Value → Bool
  | .integer _ => true
  | .bool _ => true
  | .real _ => true
  | _ => false

/-- Why an analysis of a program's file comes to nothing. -/
inductive AnalysisFault where
  /-- The program cannot be loaded. -/
  | load (fault : LoadFault)
  /-- The analysis stopped. -/
  | analysis (fault : Fault)
  /-- A setting does not have a fitting type. -/
  | settings
  deriving DecidableEq, Repr

/-- The wording of a fault that is expected and so has one. -/
def AnalysisFault.message? : AnalysisFault → Option String
  | .load fault => some fault.message
  | .analysis .cancelled => Fault.message? .cancelled
  | .analysis (.malformed what) => some what.message
  | _ => none

/-- The analysis of an image under given settings. -/
def analyseImage (tools : Tools) (settings : Settings) (onlyClass : Option String) (image : Image)
    (info : ImageInfo) : Except AnalysisFault Hierarchy × List Note :=
  let fits := (settings .pureVirtualSymbol).isKey && countsWorkers (settings .maxWorkers)
  if image.followsItaniumAbi && !fits then (.error .settings, [])
  else
    let limits := settings.limits
    let job : Job :=
      { image, info := some info, demangle := tools.demangle, limits,
        detector := (image.detector tools.listing limits.maxFunctionSize).toOption,
        filter := onlyClass }
    let (result, journal) := job.run
    (result.mapError .analysis, journal)

/-- The analysis of the program in a file, with its journal. -/
def analyseFile (tools : Tools) (files : Files) (settings : Settings) (o : Options) :
    Except AnalysisFault Hierarchy × List Note :=
  let starting : Note := { level := .info, message := "Starting analysis of " ++ o.path }
  match files.loadElf o.path with
  | .error fault => (.error (.load fault), [starting])
  | .ok (image, info) =>
    let loaded : Note :=
      { level := .info, operation := some "load",
        message := "Loaded " ++ info.arch ++ " " ++ decimal info.bits ++ "-bit image: " ++
          decimal image.blocks.length ++ " blocks, " ++ decimal image.functions.length ++
          " functions" }
    let (result, journal) := analyseImage tools settings o.onlyClass image info
    (result, starting :: loaded :: journal)

/-- What is shown after an analysis. -/
def showResult (o : Options) (h : Hierarchy) : List Event :=
  h.display o.onlyClass.isSome ++ Console.info ("Duration: " ++ secondsText h.duration) ++
    (if h.failed.isEmpty then []
    else Console.warning (decimal h.failed.length ++ " classes have malformed type_info"))

/-- The outcome of an analysis that gave a result: it is shown or printed, and written to a file if
    one is named. -/
def deliver (tools : Tools) (files : Files) (o : Options) (h : Hierarchy) : Outcome :=
  let printed := if o.json then .report h else .nothing
  let shown := showResult o h
  match o.output.filter (· ≠ "") with
  | none => { exitCode := 0, events := shown, printed, files }
  | some path =>
    let text := (h.document tools.time).jsonIndented
    match files.write path text.toUTF8 with
    | .error _ => { exitCode := 1, events := shown, printed, files }
    | .ok written =>
      { exitCode := 0, printed, files := written,
        events := shown ++ Console.success ("JSON report saved: " ++ files.absolute path) }

/-- The outcome of an analysis under given settings. -/
def analyseUnder (tools : Tools) (files : Files) (o : Options) (settings : Settings) : Outcome :=
  match openJournal? settings files with
  | none => { exitCode := 1, files }
  | some files =>
    let status := Console.status "Recovering class hierarchy..."
    let (result, journal) := analyseFile tools files settings o
    match result with
    | .error fault =>
      let shown := match fault.message? with
        | none => []
        | some message => Console.failure ("Analysis failed: " ++ message)
      { exitCode := 1, events := status ++ shown, journal, files }
    | .ok h =>
      let outcome := deliver tools files o h
      { outcome with events := status ++ outcome.events, journal }

/-- The outcome of an analysis with given options, before what is shown is hidden. -/
def analyseAloud (tools : Tools) (files : Files) (o : Options) : Outcome :=
  let title := Console.title programTitle programVersion
  match files.loadSettings o.config with
  | .error (.notATable _) => { exitCode := 1, events := title, files }
  | .error .nestedTooDeep => { exitCode := 1, events := title, files }
  | .error fault =>
    { exitCode := 2, files,
      events := title ++ Console.failure ("Cannot load configuration: " ++ fault.message) }
  | .ok settings =>
    let outcome := analyseUnder tools files o (applyOptions o settings)
    { outcome with events := title ++ outcome.events }

/-- The outcome of an analysis with given options.  Nothing is shown if the report is printed. -/
def analyse (tools : Tools) (files : Files) (o : Options) : Outcome :=
  let outcome := analyseAloud tools files o
  if o.json then { outcome with events := [] } else outcome

/-- A run with a given command line. -/
def run (tools : Tools) (files : Files) (arguments : List String) : Outcome :=
  match Request.ofArguments files arguments with
  | .error fault => { exitCode := fault.exitCode, usage := some fault, files }
  | .ok .version =>
    { exitCode := 0, printed := .text (programName ++ ", version " ++ programVersion), files }
  | .ok .help => { exitCode := 0, printed := .text helpText, files }
  | .ok (.analysis o) => analyse tools files o

end ItaniumRtti.CommandLine
