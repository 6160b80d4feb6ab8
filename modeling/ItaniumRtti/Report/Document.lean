import ItaniumRtti.Report.Model
import ItaniumRtti.Value.Basic

namespace ItaniumRtti

/-!
# Report documents

* `Hierarchy.document` — what was recovered from a program as a plain value, ready to be written
  as JSON.  Addresses are hexadecimal texts.
-/

/-- An address as a value. -/
def hexValue (address : Int) : Value :=
  .text (reportHex address)

/-- An address that may be missing as a value. -/
def hexValue? : Option Int → Value
  | none => .null
  | some address => hexValue address

namespace ImageInfo

/-- The program as a whole as a value. -/
def document (info : ImageInfo) : Value :=
  .table [
    ("path", .text info.path),
    ("size", .integer info.size),
    ("arch", .text info.arch),
    ("bits", .integer info.bits),
    ("endian", .text info.endian),
    ("itanium_abi", .bool info.itaniumAbi),
    ("sha256", .text info.sha256)]

end ImageInfo

/-- A direct base as a value. -/
def BaseReport.document (b : BaseReport) : Value :=
  .table [
    ("address", hexValue b.address),
    ("name", .text b.name),
    ("offset", .integer b.offset),
    ("virtual", .bool b.isVirtual),
    ("public", .bool b.isPublic)]

/-- A virtual function as a value. -/
def SlotReport.document (s : SlotReport) : Value :=
  .table [
    ("address", hexValue? s.address),
    ("name", .text s.name),
    ("pure_virtual", .bool s.isPure)]

/-- A sub-table as a value. -/
def TableReport.document (t : TableReport) : Value :=
  .table [
    ("address_point", hexValue t.addressPoint),
    ("offset_to_top", .integer t.offsetToTop),
    ("base", hexValue? t.base),
    ("slots", .list (t.slots.map (·.document)))]

/-- A vtable as a value. -/
def VtableReport.document (v : VtableReport) : Value :=
  .table [
    ("address", hexValue v.address),
    ("tables", .list (v.tables.map (·.document)))]

/-- A store as a value. -/
def Attribution.document (a : Attribution) : Value :=
  .table [
    ("site", hexValue a.site),
    ("value", hexValue a.value),
    ("class", hexValue a.classAddress),
    ("vtt_index", match a.vttIndex with
      | none => .null
      | some index => .integer index)]

/-- A constructor or destructor as a value. -/
def Assignment.document (a : Assignment) : Value :=
  .table [
    ("function", hexValue a.function.address),
    ("name", .text a.function.name),
    ("class", hexValue a.classAddress),
    ("role", .text a.role.name),
    ("stores", .list (a.stores.map (·.document)))]

/-- A class as a value.  It says what is malformed only if something is. -/
def ClassReport.document (c : ClassReport) : Value :=
  .table ([
    ("address", hexValue c.address),
    ("kind", .text c.kind.runtimeClass),
    ("type_name", .text c.typeName),
    ("name", .text c.name),
    ("abstract", .bool c.isAbstract),
    ("parents", .list (c.bases.map (·.document))),
    ("virtual_parents", .list (c.virtualBases.map hexValue)),
    ("vtable", match c.vtable with
      | none => .null
      | some v => v.document),
    ("vtt", .list (c.vtt.map hexValue)),
    ("assignments", .list (c.assignments.map (·.document)))] ++
    if c.error = "" then [] else [("error", .text c.error)])

/-- Version of the document's layout. -/
def documentVersion : String := "1.0.0"

/-- What was recovered from a program as a value, with the time at which it was written. -/
def Hierarchy.document (h : Hierarchy) (writtenAt : String) : Value :=
  .table [
    ("report_type", .text "ancestry_class_hierarchy"),
    ("version", .text documentVersion),
    ("generated_at", .text writtenAt),
    ("image", h.info.document),
    ("pure_virtual", hexValue? h.pureAddress),
    ("duration_seconds", .real (roundFloat 3 h.duration)),
    ("class_count", .integer h.classes.length),
    ("failed_count", .integer h.failed.length),
    ("classes", .list (h.classes.map (·.document)))]

end ItaniumRtti
