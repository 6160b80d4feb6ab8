namespace ItaniumRtti

/-!
# Files

The part of a file system that a run can see, as a value.

* `FileEntry`, `Files` — files and folders by their absolute paths;
* `pathParts`, `pathText` — the names on a path, and its normal form;
* `FileFault` — why a file cannot be used;
* `checkPath` — whether a path can be looked up at all;
* `Files.find` — what stands at a path;
* `Files.read` — the contents of a file;
* `Files.write` — the files after one was written.
-/

/-- What stands at a path. -/
inductive FileEntry where
  /-- A file with its contents. -/
  | file (data : ByteArray)
  /-- A folder. -/
  | folder

/-- The part of a file system that a run can see. -/
structure Files where
  /-- The names on the way to the current folder. -/
  current : List String
  /-- Files and folders by the names on the way to them.  Folders on the way to an entry need no
      entry of their own. -/
  entries : List (List String × FileEntry)

/-- Why a file cannot be used. -/
inductive FileFault where
  /-- There is nothing at the path. -/
  | missing
  /-- Something on the way is no folder. -/
  | notAFolder
  /-- There is a folder at the path. -/
  | isAFolder
  /-- A name on the path, or the path as a whole, is too long. -/
  | nameTooLong
  /-- The path holds a character that no path can hold. -/
  | nulInPath
  deriving DecidableEq, Repr

/-- The number and wording of a fault. -/
def FileFault.message : FileFault → String
  | .missing => "[Errno 2] No such file or directory"
  | .notAFolder => "[Errno 20] Not a directory"
  | .isAFolder => "[Errno 21] Is a directory"
  | .nameTooLong => "[Errno 36] File name too long"
  | .nulInPath => "embedded null byte"

/-! ### Paths -/

/-- The pieces of a text between slashes. -/
def slashPieces (text : String) : List String :=
  (text.toList.splitOn '/').map String.ofList

/-- Whether a path begins at the root. -/
def isAbsolutePath (path : String) : Bool :=
  path.toList.head? == some '/'

/-- The names on a path, without those that stay in place. -/
def pathParts (path : String) : List String :=
  (slashPieces path).filter fun name => name ≠ "" && name ≠ "."

/-- What the normal form of a path begins with: two slashes are kept, more count as one. -/
def pathRoot (path : String) : String :=
  match path.toList with
  | '/' :: '/' :: '/' :: _ => "/"
  | '/' :: '/' :: _ => "//"
  | '/' :: _ => "/"
  | _ => ""

/-- The normal form of a path. -/
def pathText (path : String) : String :=
  let text := pathRoot path ++ String.intercalate "/" (pathParts path)
  if text = "" then "." else text

/-- Most bytes of a name. -/
def mostNameBytes : Nat := 255

/-- Most bytes of a path. -/
def mostPathBytes : Nat := 4095

/-- A path that a file system can look up at all. -/
def checkPath (path : String) : Except FileFault Unit :=
  if path.toList.contains '\x00' then .error .nulInPath
  else if mostPathBytes < path.utf8ByteSize then .error .nameTooLong
  else .ok ()

namespace Files

variable (files : Files)

/-- What stands at a list of names. -/
def entryAt? (names : List String) : Option FileEntry :=
  match files.entries.lookup names with
  | some entry => some entry
  | none =>
    if names.isPrefixOf files.current || files.entries.any fun (path, _) => names.isPrefixOf path
    then some .folder
    else none

/-- The names that a path leads to from `here`, one name after the other. -/
def walk : List String → List String → Except FileFault (List String)
  | [], here => .ok here
  | name :: rest, here =>
    match files.entryAt? here with
    | none => .error .missing
    | some (.file _) => .error .notAFolder
    | some .folder =>
      if name = "" || name = "." then walk rest here
      else if name = ".." then walk rest here.dropLast
      else if mostNameBytes < name.utf8ByteSize then .error .nameTooLong
      else walk rest (here ++ [name])

/-- Where a path begins. -/
def start (path : String) : List String :=
  if isAbsolutePath path then [] else files.current

/-- What stands at the end of a walk along the `names` of a path. -/
def findAlong (path : String) (names : List String) : Except FileFault FileEntry := do
  checkPath path
  let here ← files.walk names (files.start path)
  match files.entryAt? here with
  | none => throw .missing
  | some entry => return entry

/-- What stands at a path, taken as it is written: a slash at its end asks for a folder. -/
def findExactly (path : String) : Except FileFault FileEntry :=
  if path = "" then .error .missing else files.findAlong path (slashPieces path)

/-- What stands at the normal form of a path. -/
def find (path : String) : Except FileFault FileEntry :=
  files.findAlong (pathText path) (pathParts path)

/-- The contents of the file at the normal form of a path. -/
def read (path : String) : Except FileFault ByteArray :=
  match files.find path with
  | .error fault => .error fault
  | .ok .folder => .error .isAFolder
  | .ok (.file data) => .ok data

/-- The names at the end of a path, whether or not something is there. -/
def resolveNames (path : String) : List String :=
  (pathParts path).foldl
    (fun here name => if name = ".." then here.dropLast else here ++ [name]) (files.start path)

/-- The absolute form of a path. -/
def absolute (path : String) : String :=
  "/" ++ String.intercalate "/" (files.resolveNames path)

/-- The files with an entry for `names`, in place of any other. -/
def put (names : List String) (entry : FileEntry) : Files :=
  { files with entries := (names, entry) :: files.entries.filter (·.1 != names) }

/-- The files with folders on the way along names from `here`, and where the way ends. -/
def makeFolders : List String → List String → Files → Except FileFault (List String × Files)
  | names, here, files =>
    match files.entryAt? here with
    | some (.file _) => .error .notAFolder
    | found =>
      let files := if found.isSome then files else files.put here .folder
      match names with
      | [] => .ok (here, files)
      | name :: rest =>
        if mostNameBytes < name.utf8ByteSize then .error .nameTooLong
        else makeFolders rest (if name = ".." then here.dropLast else here ++ [name]) files

/-- The files after `data` was written to a path.  Missing folders are made. -/
def write (path : String) (data : ByteArray) : Except FileFault Files := do
  checkPath (pathText path)
  let names := pathParts path
  match names.getLast? with
  | none => throw .isAFolder
  | some name =>
    let (here, files) ← makeFolders names.dropLast (files.start path) files
    if mostNameBytes < name.utf8ByteSize then throw .nameTooLong
    let target := if name = ".." then here.dropLast else here ++ [name]
    match files.entryAt? target with
    | some .folder => throw .isAFolder
    | _ => return files.put target (.file data)

end Files

end ItaniumRtti
