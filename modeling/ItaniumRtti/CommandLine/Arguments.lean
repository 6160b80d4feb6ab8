import ItaniumRtti.Files.Basic
import ItaniumRtti.Text.Numeral

namespace ItaniumRtti.CommandLine

/-!
# Arguments

* `Switch` — the options;
* `readArguments` — the options and other arguments of a command line, as they were given;
* `Options`, `Request` — what is asked for;
* `UsageFault` — why a command line asks for nothing, with its wording in `message`;
* `Request.ofArguments` — what a command line asks for.
-/

/-- An option. -/
inductive Switch where
  /-- Where to write a report. -/
  | output
  /-- The only class wanted. -/
  | onlyClass
  /-- Number of classes analysed at a time. -/
  | workers
  /-- Where the settings are. -/
  | config
  /-- Not to look for constructors and destructors. -/
  | noConstructors
  /-- To note everything. -/
  | verbose
  /-- To print the report. -/
  | json
  /-- To print the version. -/
  | version
  /-- To print how to use the program. -/
  | help
  deriving DecidableEq, Repr

/-- Why a command line asks for nothing. -/
inductive UsageFault where
  /-- There is no such option. -/
  | noSuchOption (name : String)
  /-- An option lacks its value. -/
  | needsValue (name : String)
  /-- An option is given a value that it does not take. -/
  | takesNoValue (name : String)
  /-- A value is no whole number. -/
  | notWhole (value : String)
  /-- No program is named. -/
  | noPath
  /-- More than one program is named. -/
  | extraArgument (argument : String)
  /-- A file that is named does not exist. -/
  | noSuchFile (path : String)
  /-- A file that is named is a folder. -/
  | isAFolder (path : String)
  /-- A path holds a character that no path can hold. -/
  | nulInPath
  deriving DecidableEq, Repr

/-- The wording of a fault. -/
def UsageFault.message : UsageFault → String
  | .noSuchOption name => "No such option: " ++ name
  | .needsValue name => "Option '" ++ name ++ "' requires an argument."
  | .takesNoValue name => "Option '" ++ name ++ "' does not take a value."
  | .notWhole value => "'" ++ value ++ "' is not a valid integer."
  | .noPath => "Missing argument 'PATH'."
  | .extraArgument argument => "Got unexpected extra argument (" ++ argument ++ ")"
  | .noSuchFile path => "File '" ++ path ++ "' does not exist."
  | .isAFolder path => "File '" ++ path ++ "' is a directory."
  | .nulInPath => FileFault.nulInPath.message

/-- The exit code of a run that asks for nothing. -/
def UsageFault.exitCode : UsageFault → Nat
  | .nulInPath => 1
  | _ => 2

namespace Switch

/-- Whether an option takes a value. -/
def takesValue : Switch → Bool
  | .output | .onlyClass | .workers | .config => true
  | _ => false

/-- The option with a long name. -/
def ofLong? (name : String) : Option Switch :=
  match name with
  | "--output" => some .output
  | "--class" => some .onlyClass
  | "--workers" => some .workers
  | "--config" => some .config
  | "--no-ctors" => some .noConstructors
  | "--verbose" => some .verbose
  | "--json" => some .json
  | "--version" => some .version
  | "--help" => some .help
  | _ => none

/-- The option with a letter. -/
def ofLetter? (letter : Char) : Option Switch :=
  match letter with
  | 'o' => some .output
  | 'c' => some .onlyClass
  | 'w' => some .workers
  | 'v' => some .verbose
  | _ => none

end Switch

/-- The options, with their values, and other arguments of a command line, as they were given. -/
structure Given where
  /-- Options in order; the value is empty for those that take none. -/
  switches : List (Switch × String) := []
  /-- Other arguments in order. -/
  others : List String := []

namespace Given

/-- What was given, with options before it. -/
def withSwitches (g : Given) (switches : List (Switch × String)) : Given :=
  { g with switches := switches ++ g.switches }

/-- What was given, with another argument before it. -/
def withOther (g : Given) (argument : String) : Given :=
  { g with others := argument :: g.others }

end Given

/-- A long name and the value joined to it by an equals sign. -/
def splitLong (argument : String) : String × Option String :=
  let name := argument.toList.takeWhile (· ≠ '=')
  match argument.toList.drop name.length with
  | [] => (argument, none)
  | _ :: value => (String.ofList name, some (String.ofList value))

/-- The options that letters stand for.  The rest of the letters after one that takes a value are
    its value; if there are none it is the second result. -/
def readLetters : List Char → Except UsageFault (List (Switch × String) × Option Switch)
  | [] => .ok ([], none)
  | letter :: rest =>
    match Switch.ofLetter? letter with
    | none => .error (.noSuchOption (String.ofList ['-', letter]))
    | some s =>
      if s.takesValue then
        if rest.isEmpty then .ok ([], some s) else .ok ([(s, String.ofList rest)], none)
      else do
        let (switches, last) ← readLetters rest
        return ((s, "") :: switches, last)

/-- Whether an argument is an option: a dash alone is not. -/
def isSwitch (argument : String) : Bool :=
  argument.toList.head? == some '-' && 1 < argument.length

/-- Whether an argument is an option with a long name. -/
def isLong (argument : String) : Bool :=
  argument.toList.take 2 == ['-', '-']

/-- The options that an argument stands for, and the one that takes the next argument as its
    value. -/
def readSwitch (argument : String) : Except UsageFault (List (Switch × String) × Option Switch) :=
  let (name, value) := splitLong argument
  match Switch.ofLong? name, value with
  | some s, none => .ok (if s.takesValue then ([], some s) else ([(s, "")], none))
  | some s, some value =>
    if s.takesValue then .ok ([(s, value)], none) else .error (.takesNoValue name)
  | none, _ =>
    if isLong argument then .error (.noSuchOption name)
    else readLetters (argument.toList.drop 1)

/-- The options and other arguments of a command line.  Options may stand anywhere before two
    dashes. -/
def readArguments : List String → Except UsageFault Given
  | [] => .ok {}
  | argument :: rest =>
    if argument = "--" then .ok { others := rest }
    else if !isSwitch argument then (readArguments rest).map (·.withOther argument)
    else match readSwitch argument with
      | .error fault => .error fault
      | .ok (switches, none) => (readArguments rest).map (·.withSwitches switches)
      | .ok (switches, some s) =>
        match rest with
        | [] => .error (.needsValue argument)
        | value :: after =>
          (readArguments after).map (·.withSwitches (switches ++ [(s, value)]))

/-! ### What is asked for -/

/-- How to analyse a program. -/
structure Options where
  /-- The program. -/
  path : String
  /-- Where to write a report. -/
  output : Option String := none
  /-- The only class wanted. -/
  onlyClass : Option String := none
  /-- Number of classes analysed at a time. -/
  workers : Option Int := none
  /-- Where the settings are. -/
  config : Option String := none
  /-- Whether constructors and destructors are left out. -/
  noConstructors : Bool := false
  /-- Whether everything is noted. -/
  verbose : Bool := false
  /-- Whether the report is printed. -/
  json : Bool := false
  deriving DecidableEq, Repr

/-- What a command line asks for. -/
inductive Request where
  /-- The version of the program. -/
  | version
  /-- How to use the program. -/
  | help
  /-- An analysis. -/
  | analysis (options : Options)
  deriving DecidableEq, Repr

namespace Given

variable (g : Given)

/-- The last value of an option. -/
def last? (s : Switch) : Option String :=
  (g.switches.filter (·.1 == s)).getLast?.map (·.2)

/-- Whether an option is given. -/
def has (s : Switch) : Bool :=
  g.switches.any (·.1 == s)

/-- The number of workers. -/
def workers? : Except UsageFault (Option Int) :=
  match g.last? .workers with
  | none => .ok none
  | some text =>
    match wholeNumber? text with
    | none => .error (.notWhole text)
    | some n => .ok (some n)

/-- How to analyse the one program that is named. -/
def options : Except UsageFault Options := do
  let workers ← g.workers?
  match g.others with
  | [] => .error .noPath
  | path :: rest =>
    match rest with
    | extra :: _ => .error (.extraArgument extra)
    | [] => return {
        path, workers, output := g.last? .output, onlyClass := g.last? .onlyClass,
        config := g.last? .config, noConstructors := g.has .noConstructors,
        verbose := g.has .verbose, json := g.has .json }

end Given

/-- A path that leads to a file. -/
def requireFile (files : Files) (path : String) : Except UsageFault Unit :=
  match files.findExactly path with
  | .error .nulInPath => .error .nulInPath
  | .error _ => .error (.noSuchFile path)
  | .ok .folder => .error (.isAFolder path)
  | .ok (.file _) => .ok ()

/-- A path that may lead anywhere. -/
def requirePath (files : Files) (path : String) : Except UsageFault Unit :=
  match files.findExactly path with
  | .error .nulInPath => .error .nulInPath
  | _ => .ok ()

/-- What options ask for.  The first option that asks for a text wins over all else. -/
def Request.ofGiven (files : Files) (g : Given) : Except UsageFault Request :=
  match g.switches.find? fun (s, _) => s == .version || s == .help with
  | some (.version, _) => .ok .version
  | some _ => .ok .help
  | none => do
    let options ← g.options
    requireFile files options.path
    options.output.forM (requirePath files)
    options.config.forM (requireFile files)
    return .analysis options

/-- What a command line asks for. -/
def Request.ofArguments (files : Files) (arguments : List String) : Except UsageFault Request := do
  Request.ofGiven files (← readArguments arguments)

end ItaniumRtti.CommandLine
