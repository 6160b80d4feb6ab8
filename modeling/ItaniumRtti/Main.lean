import ItaniumRtti.CommandLine.Run
import ItaniumRtti.Console.Plain
import ItaniumRtti.Journal.Basic

namespace ItaniumRtti.CommandLine

/-!
# The command

Reads the files that the command line names, runs the program on them, and shows, prints and writes
what it leads to.  Neither a demangler nor a disassembler is at hand: names stay mangled and no code
is examined.
-/

/-- What stands at a path of the file system, if anything. -/
def entryOnDisk (path : String) : IO (Option FileEntry) := do
  try
    return some (.file (← IO.FS.readBinFile path))
  catch fault =>
    match fault with
    | .inappropriateType _ code _ => return if code = 21 then some .folder else none
    | _ => return none

/-- The part of the file system that a command line names. -/
def filesOnDisk (arguments : List String) : IO Files := do
  let current := pathParts (toString (← IO.currentDir))
  let bare : Files := { current, entries := [] }
  match readArguments arguments with
  | .error _ => return bare
  | .ok given =>
    let mut files := bare
    for path in given.others ++ (given.last? .config).toList ++ (given.last? .output).toList do
      if let some entry ← entryOnDisk path then
        files := files.put (files.resolveNames path) entry
    return files

/-- Writes the report to the file that the command line names. -/
def writeOutput (arguments : List String) (outcome : Outcome) : IO Unit := do
  match (readArguments arguments).toOption.bind (·.last? .output) with
  | none => return
  | some path =>
    if path ≠ "" && outcome.exitCode = 0 then
      if let .ok data := outcome.files.read path then
        let folder := (pathParts path).dropLast
        if !folder.isEmpty then
          IO.FS.createDirAll (pathRoot path ++ String.intercalate "/" folder)
        IO.FS.writeBinFile path data

/-- Shows, prints and notes what a run leads to. -/
def showOutcome (tools : Tools) (verbose : Bool) (outcome : Outcome) : IO Unit := do
  let least : Level := if verbose then .debug else .info
  for note in outcome.journal do
    if note.level.passes least then
      let record : Record := { note with tool := "cli" }
      for line in record.lines do IO.eprintln line
  for event in outcome.events do
    for line in event.lines do IO.println line
  match outcome.printed with
  | .nothing => return
  | .text text => IO.println text
  | .report h => IO.println (h.document tools.time).jsonIndented

end ItaniumRtti.CommandLine

open ItaniumRtti CommandLine in
/-- Analyses the program that the command line names. -/
def main (arguments : List String) : IO UInt32 := do
  let tools : Tools := { demangle := fun _ => none, listing := [] }
  let outcome := CommandLine.run tools (← filesOnDisk arguments) arguments
  let verbose := ((readArguments arguments).toOption.map (·.has .verbose)).getD false
  if let some fault := outcome.usage then
    IO.eprintln ("Usage: ancestry [OPTIONS] PATH\n\nError: " ++ fault.message)
  showOutcome tools verbose outcome
  writeOutput arguments outcome
  return outcome.exitCode.toUInt32
