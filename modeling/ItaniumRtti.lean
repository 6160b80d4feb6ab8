import ItaniumRtti.Text.Number
import ItaniumRtti.Text.Line
import ItaniumRtti.Text.Numeral
import ItaniumRtti.Fault
import ItaniumRtti.Bytes.Order
import ItaniumRtti.Bytes.Slice
import ItaniumRtti.Text.Utf8
import ItaniumRtti.Text.Affix
import ItaniumRtti.Image.Block
import ItaniumRtti.Image.Basic
import ItaniumRtti.Image.Range
import ItaniumRtti.Image.Read
import ItaniumRtti.Image.Search
import ItaniumRtti.Image.Marks
import ItaniumRtti.Name.Qualified
import ItaniumRtti.Name.Demangled
import ItaniumRtti.TypeInfo.Basic
import ItaniumRtti.Recovery.Limits
import ItaniumRtti.Vtable.Basic
import ItaniumRtti.Hierarchy.Base
import ItaniumRtti.Code.Store
import ItaniumRtti.Recovery.Monad
import ItaniumRtti.TypeInfo.Name
import ItaniumRtti.Hierarchy.Descriptor
import ItaniumRtti.Hierarchy.Walk
import ItaniumRtti.Vtable.Header
import ItaniumRtti.Vtable.Slots
import ItaniumRtti.Vtable.Parse
import ItaniumRtti.Vtable.Locate
import ItaniumRtti.Vtable.Vtt
import ItaniumRtti.Code.Instruction
import ItaniumRtti.Code.Facts
import ItaniumRtti.Code.Detector
import ItaniumRtti.Code.Correlate
import ItaniumRtti.Report.Model
import ItaniumRtti.Journal.Note
import ItaniumRtti.Analysis.Discover
import ItaniumRtti.Analysis.Class
import ItaniumRtti.Analysis.Run
import ItaniumRtti.Session.Query
import ItaniumRtti.Session.Basic
import ItaniumRtti.Digest.Sha256
import ItaniumRtti.Elf.Record
import ItaniumRtti.Elf.Section
import ItaniumRtti.Elf.Symbol
import ItaniumRtti.Elf.Relocation
import ItaniumRtti.Elf.Image
import ItaniumRtti.Text.Decimal
import ItaniumRtti.Text.Visible
import ItaniumRtti.Text.Quoted
import ItaniumRtti.Value.Basic
import ItaniumRtti.Value.Json
import ItaniumRtti.Report.Document
import ItaniumRtti.Console.Event
import ItaniumRtti.Console.Hierarchy
import ItaniumRtti.Toml.Text
import ItaniumRtti.Toml.Number
import ItaniumRtti.Toml.Document
import ItaniumRtti.Files.Basic
import ItaniumRtti.Elf.Load
import ItaniumRtti.Settings.Basic
import ItaniumRtti.Settings.Load
import ItaniumRtti.Journal.Template
import ItaniumRtti.Journal.Basic
import ItaniumRtti.CommandLine.Arguments
import ItaniumRtti.CommandLine.Run
import ItaniumRtti.Console.Plain
import ItaniumRtti.Main
import ItaniumRtti.Proofs.Block
import ItaniumRtti.Proofs.Occurrences
import ItaniumRtti.Proofs.Word
import ItaniumRtti.Proofs.Ranges
import ItaniumRtti.Proofs.Search
import ItaniumRtti.Proofs.Recover
import ItaniumRtti.Proofs.Discovery
import ItaniumRtti.Proofs.Alike
import ItaniumRtti.Proofs.Relocation
import ItaniumRtti.Proofs.Simulation.Hierarchy
import ItaniumRtti.Proofs.Simulation.Vtable
import ItaniumRtti.Proofs.Simulation.Report
import ItaniumRtti.Proofs.Simulation.Discovery
import ItaniumRtti.Proofs.Rebase
import ItaniumRtti.Proofs.Marks
import ItaniumRtti.Proofs.Sound
import ItaniumRtti.Proofs.Independence
import ItaniumRtti.Proofs.WellFormed
import ItaniumRtti.Proofs.Layout
import ItaniumRtti.Proofs.VtableLayout
import ItaniumRtti.Proofs.Reachable
import ItaniumRtti.Proofs.Invariant
import ItaniumRtti.Proofs.Isolation
import ItaniumRtti.Proofs.StoreIndex
import ItaniumRtti.Proofs.Session.Growing
import ItaniumRtti.Proofs.Session.Keeping
import ItaniumRtti.Proofs.Elf.Draft
import ItaniumRtti.Proofs.Elf.RoundTrip
import ItaniumRtti.Proofs.Elf.AddressRange
import ItaniumRtti.Proofs.Session.Lasting
import ItaniumRtti.Proofs.Session.Cancelled
import ItaniumRtti.Proofs.Elf.Loader
import ItaniumRtti.Proofs.References
import ItaniumRtti.Proofs.ByteSearch
import ItaniumRtti.Proofs.Session.Settled
import ItaniumRtti.Proofs.Vtable.Headers
import ItaniumRtti.Proofs.Vtable.SlotRun
import ItaniumRtti.Proofs.Vtable.Groups
import ItaniumRtti.Proofs.Vtable.Bases
import ItaniumRtti.Proofs.Vtable.Tiling
import ItaniumRtti.Proofs.Vtable.Covering
import ItaniumRtti.Proofs.Hierarchy.Graph
import ItaniumRtti.Proofs.Hierarchy.Descriptors
import ItaniumRtti.Proofs.Hierarchy.Preorder
import ItaniumRtti.Proofs.Vtable.VttRun
import ItaniumRtti.Proofs.Vtable.Lookup
import ItaniumRtti.Proofs.Hierarchy.Virtuals
import ItaniumRtti.Proofs.Hierarchy.Offsets
import ItaniumRtti.Proofs.Hierarchy.Abstract
import ItaniumRtti.Proofs.Vtable.Within
import ItaniumRtti.Proofs.Correlation.Groups
import ItaniumRtti.Proofs.Correlation.Run
import ItaniumRtti.Proofs.Correlation.Attribution
import ItaniumRtti.Proofs.Correlation.SharedStores
import ItaniumRtti.Proofs.Code.Facts
import ItaniumRtti.Proofs.Code.Machine
import ItaniumRtti.Proofs.Code.Sites
import ItaniumRtti.Proofs.Name.Components
import ItaniumRtti.Proofs.Name.ShortName
import ItaniumRtti.Proofs.Utf8
import ItaniumRtti.Proofs.Name.Hits
import ItaniumRtti.Proofs.Name.Lookup
import ItaniumRtti.Proofs.Name.OwnName
import ItaniumRtti.Proofs.InheritanceTree
