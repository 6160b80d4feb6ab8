import ItaniumRtti.Recovery.Limits
import ItaniumRtti.Value.Basic

namespace ItaniumRtti

/-!
# Settings

A user may change the bounds of recovery and how a run is noted.  A setting keeps whatever value
it is given; only its use asks for a type.

* `Setting` — what can be set;
* `Settings` — a value for everything that can be set;
* `Settings.ofTables` — the settings that two tables of values give;
* `Settings.document` — the settings as a plain value;
* `Limits.set` — a change of a limit;
* `Settings.limits` — the limits that settings give.
-/

/-- What can be set. -/
inductive Setting where
  /-- Least level of notes that are kept. -/
  | logLevel
  /-- File that notes go to. -/
  | logFile
  /-- Whether notes go there as JSON. -/
  | logJson
  /-- Number of classes analysed at a time. -/
  | maxWorkers
  /-- See `Limits.maxBaseCount`. -/
  | maxBaseCount
  /-- See `Limits.maxOffsetToTop`. -/
  | maxOffsetToTop
  /-- See `Limits.maxVcallOffsets`. -/
  | maxVcallOffsets
  /-- See `Limits.maxVttEntries`. -/
  | maxVttEntries
  /-- See `Limits.pureVirtualSymbol`. -/
  | pureVirtualSymbol
  /-- See `Limits.typeInfoSymbolPrefix`. -/
  | typeInfoSymbolPrefix
  /-- See `Limits.scanData`. -/
  | scanData
  /-- See `Limits.detectConstructors`. -/
  | detectConstructors
  /-- See `Limits.maxFunctionSize`. -/
  | maxFunctionSize
  deriving DecidableEq, Repr

namespace Setting

/-- The settings of a run as a whole. -/
def ofRun : List Setting := [.logLevel, .logFile, .logJson, .maxWorkers]

/-- The settings of recovery. -/
def ofRecovery : List Setting :=
  [.maxBaseCount, .maxOffsetToTop, .maxVcallOffsets, .maxVttEntries, .pureVirtualSymbol,
   .typeInfoSymbolPrefix, .scanData, .detectConstructors, .maxFunctionSize]

/-- The name of a setting. -/
def name : Setting → String
  | .logLevel => "log_level"
  | .logFile => "log_file"
  | .logJson => "log_json"
  | .maxWorkers => "max_workers"
  | .maxBaseCount => "max_base_count"
  | .maxOffsetToTop => "max_offset_to_top"
  | .maxVcallOffsets => "max_vcall_offsets"
  | .maxVttEntries => "max_vtt_entries"
  | .pureVirtualSymbol => "pure_virtual_symbol"
  | .typeInfoSymbolPrefix => "type_info_symbol_prefix"
  | .scanData => "scan_data_for_type_info"
  | .detectConstructors => "detect_constructors"
  | .maxFunctionSize => "max_function_size"

/-- The value of a setting that is not given. -/
def default : Setting → Value
  | .logLevel => .text "INFO"
  | .logFile => .text ""
  | .logJson => .bool false
  | .maxWorkers => .integer 4
  | .maxBaseCount => .integer 256
  | .maxOffsetToTop => .integer 0x100000
  | .maxVcallOffsets => .integer 64
  | .maxVttEntries => .integer 512
  | .pureVirtualSymbol => .text "__cxa_pure_virtual"
  | .typeInfoSymbolPrefix => .text "_ZTI"
  | .scanData => .bool true
  | .detectConstructors => .bool true
  | .maxFunctionSize => .integer 0x4000

/-- The setting of recovery of a given name. -/
def ofRecoveryName? (name : String) : Option Setting :=
  ofRecovery.find? (·.name == name)

end Setting

/-- A value for everything that can be set. -/
abbrev Settings := Setting → Value

namespace Settings

/-- The settings of a user who sets nothing. -/
def initial : Settings := Setting.default

/-- The settings with a new value for one of them. -/
def update (settings : Settings) (setting : Setting) (v : Value) : Settings :=
  fun s => if s = setting then v else settings s

/-- The settings that a table for the run and a table for recovery give.  Other names in the tables
    are of no concern. -/
def ofTables (run recovery : List (String × Value)) : Settings := fun s =>
  let table := if Setting.ofRun.contains s then run else recovery
  (table.lookup s.name).getD s.default

/-- The settings as a plain value. -/
def document (settings : Settings) : Value :=
  let part (names : List Setting) : Value := .table (names.map fun s => (s.name, settings s))
  .table [("global_settings", part Setting.ofRun), ("rtti", part Setting.ofRecovery)]

end Settings

/-! ### Use -/

/-- A value used as a bound. -/
def Bound.ofValue : Value → Bound
  | .integer n => .whole n
  | .bool b => .whole (if b then 1 else 0)
  | .real x => .real (.ofFloat x)
  | _ => .unfit

namespace Value

/-- The value as a text, if it is one. -/
def text? : Value → Option String
  | .text s => some s
  | _ => none

/-- Whether the value can be looked up by: lists and tables cannot. -/
def isKey : Value → Bool
  | .list _ => false
  | .table _ => false
  | _ => true

end Value

/-- The limits after a setting of recovery was given a value. -/
def Limits.set (limits : Limits) (setting : Setting) (v : Value) : Limits :=
  match setting with
  | .maxBaseCount => { limits with maxBaseCount := .ofValue v }
  | .maxOffsetToTop => { limits with maxOffsetToTop := .ofValue v }
  | .maxVcallOffsets => { limits with maxVcallOffsets := .ofValue v }
  | .maxVttEntries => { limits with maxVttEntries := .ofValue v }
  | .pureVirtualSymbol => { limits with pureVirtualSymbol := v.text? }
  | .typeInfoSymbolPrefix => { limits with typeInfoSymbolPrefix := v.text? }
  | .scanData => { limits with scanData := v.isSet }
  | .detectConstructors => { limits with detectConstructors := v.isSet }
  | .maxFunctionSize => { limits with maxFunctionSize := .ofValue v }
  | _ => limits

/-- The limits that settings give. -/
def Settings.limits (settings : Settings) : Limits where
  maxBaseCount := .ofValue (settings .maxBaseCount)
  maxOffsetToTop := .ofValue (settings .maxOffsetToTop)
  maxVcallOffsets := .ofValue (settings .maxVcallOffsets)
  maxVttEntries := .ofValue (settings .maxVttEntries)
  pureVirtualSymbol := (settings .pureVirtualSymbol).text?
  typeInfoSymbolPrefix := (settings .typeInfoSymbolPrefix).text?
  scanData := (settings .scanData).isSet
  detectConstructors := (settings .detectConstructors).isSet
  maxFunctionSize := .ofValue (settings .maxFunctionSize)

/-- A user who sets nothing works within the usual limits. -/
theorem Settings.limits_initial : Settings.initial.limits = {} := rfl

/-- A change of one setting is a change of one limit. -/
theorem Settings.limits_update (settings : Settings) (setting : Setting) (v : Value) :
    (settings.update setting v).limits = settings.limits.set setting v := by
  cases setting <;> rfl

end ItaniumRtti
