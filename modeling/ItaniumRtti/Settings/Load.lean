import ItaniumRtti.Files.Basic
import ItaniumRtti.Settings.Basic
import ItaniumRtti.Toml.Document

namespace ItaniumRtti

/-!
# Settings from files

* `SettingsFault` — why settings cannot be loaded, with its wording in `message`;
* `Files.loadSettings` — the settings in a file;
* `SettingsShelf` — settings that were loaded, some of them for common use;
* `SettingsShelf.load`, `SettingsShelf.get`, `SettingsShelf.change` — its operations.
-/

/-- Why settings cannot be loaded. -/
inductive SettingsFault where
  /-- There is no such file. -/
  | missing (path : String)
  /-- The path cannot be looked up. -/
  | nameTooLong (path : String)
  /-- The path leads to a folder. -/
  | isAFolder (path : String)
  /-- The file is not in UTF-8. -/
  | notUtf8
  /-- The file is no TOML document. -/
  | notToml
  /-- A whole number has too many digits. -/
  | numberTooLong
  /-- Lists and tables stand too deep inside one another. -/
  | nestedTooDeep
  /-- A section is no table. -/
  | notATable (name : String)
  deriving DecidableEq, Repr

/-- The wording of a fault. -/
def SettingsFault.message : SettingsFault → String
  | .missing path => "Configuration file not found: " ++ path
  | .nameTooLong path => FileFault.nameTooLong.message ++ ": " ++ quoteText path
  | .isAFolder path => FileFault.isAFolder.message ++ ": " ++ quoteText path
  | .notUtf8 => "the file is not encoded in UTF-8"
  | .notToml => "the file is not a valid TOML document"
  | .numberTooLong => "a number has more than " ++ decimal mostDigits ++ " digits"
  | .nestedTooDeep => "lists and tables are nested too deep"
  | .notATable name => "section " ++ name ++ " is not a table"

/-- What is wrong with a file that cannot be read as a document. -/
def SettingsFault.ofRead : Toml.ReadFault → SettingsFault
  | .malformed => .notToml
  | .numberTooLong => .numberTooLong
  | .nestedTooDeep => .nestedTooDeep

/-- The section of a given name, empty if it is missing. -/
def sectionOf (document : Toml.Fields) (name : String) : Except SettingsFault Toml.Fields :=
  match document.lookup name with
  | none => .ok []
  | some (.table fields) => .ok fields
  | some _ => .error (.notATable name)

/-- The settings in the contents of a file. -/
def Settings.ofData (data : ByteArray) : Except SettingsFault Settings :=
  match String.fromUTF8? data with
  | none => .error .notUtf8
  | some text => do
    let document ← (Toml.parse text).mapError .ofRead
    let run ← sectionOf document "global"
    let recovery ← sectionOf document "rtti"
    return .ofTables run recovery

/-- The settings in the file at a path, or the initial ones if no path is given. -/
def Files.loadSettings (files : Files) : Option String → Except SettingsFault Settings
  | none => .ok .initial
  | some path =>
    match files.find path with
    | .error .nameTooLong => .error (.nameTooLong (pathText path))
    | .error _ => .error (.missing (pathText path))
    | .ok .folder => .error (.isAFolder (pathText path))
    | .ok (.file data) => Settings.ofData data

/-! ### Shared settings -/

/-- Settings that were loaded, known by their numbers. -/
structure SettingsShelf where
  /-- All settings that were loaded, in order. -/
  loaded : List Settings := []
  /-- The number of the settings for common use. -/
  shared : Option Nat := none

namespace SettingsShelf

variable (shelf : SettingsShelf)

/-- The settings of a given number. -/
def settings? (number : Nat) : Option Settings :=
  shelf.loaded[number]?

/-- Loads settings anew, and gives their number. -/
def load (files : Files) (path : Option String) : Except SettingsFault (Nat × SettingsShelf) :=
  match files.loadSettings path with
  | .error fault => .error fault
  | .ok settings =>
    .ok (shelf.loaded.length, { shelf with loaded := shelf.loaded ++ [settings] })

/-- The number of the settings for common use.  They are loaded if there are none yet or a path is
    given. -/
def get (files : Files) (path : Option String) : Except SettingsFault (Nat × SettingsShelf) :=
  match path, shelf.shared with
  | none, some number => .ok (number, shelf)
  | _, _ =>
    match shelf.load files path with
    | .error fault => .error fault
    | .ok (number, shelf) => .ok (number, { shelf with shared := some number })

/-- The shelf after a change of one of the settings of a given number. -/
def change (number : Nat) (setting : Setting) (v : Value) : SettingsShelf :=
  { shelf with loaded := shelf.loaded.modify number fun settings => settings.update setting v }

end SettingsShelf

end ItaniumRtti
