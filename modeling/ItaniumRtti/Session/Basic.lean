import ItaniumRtti.Analysis.Discover
import ItaniumRtti.Session.Query

namespace ItaniumRtti

/-!
# Sessions

A session answers queries about one program and remembers what it learned.

* `Session` — a program, what was learned about it, and what the user set;
* `Session.ask` — an answer, and the session after it;
* `Session.run` — the answers to a list of queries.
-/

/-- A program under examination. -/
structure Session where
  /-- The program. -/
  image : Image
  /-- What recognition compares with, fixed when the session begins. -/
  roots : Roots
  /-- Display forms of symbols. -/
  demangle : Demangler
  /-- Bounds of recovery. -/
  limits : Limits
  /-- Whether the user asked to stop. -/
  cancelled : Bool
  /-- A table of stores for correlation. -/
  table : Detector
  /-- The program's code. -/
  listing : Listing
  /-- What was learned so far. -/
  known : Knowledge

namespace Session

/-- A session about `image` in which nothing is known yet. -/
def start (image : Image) (demangle : Demangler) (limits : Limits) (table : Detector)
    (listing : Listing) : Session where
  image := image
  roots := .ofImage image limits.pureVirtualSymbol
  demangle := demangle
  limits := limits
  cancelled := false
  table := table
  listing := listing
  known := .initial

/-- What a query of the session reads. -/
def context (s : Session) : Context where
  image := s.image
  roots := s.roots
  demangle := s.demangle
  limits := s.limits
  cancelled := s.cancelled

/-- Bytes of code examined for a function of unknown size in a correlation. -/
def defaultFunctionSize : Bound := .whole 0x4000

variable (s : Session)

/-- The answer to a question about the image. -/
def askImage (question : ImageQuery) : Except Fault Answer :=
  let img := s.image
  match question with
  | .blocks => return .blocks img.blocks
  | .blockAt address => return .block (img.blockAt? address)
  | .isCode address => return .flag (img.isCode address)
  | .dataRanges => return .ranges img.dataRanges
  | .readBytes address length => return .bytes (img.readBytes? address length)
  | .readInt address size signed => return .number (← img.readInt address size signed)
  | .readPointer address => return .number (← img.readPointer address)
  | .resolve address => return .number (← img.resolve address)
  | .relocationAt address =>
    return .relocation ((img.relocationAt? address).map (Prod.mk address))
  | .relocations => return .relocations img.relocationList
  | .symbolAddress name => return .number (img.symbolAddress? name)
  | .symbolsWithPrefix start => return .symbols (img.symbolsWithPrefix start)
  | .symbolsAt address => return .symbols (img.symbolsAt address)
  | .functionAt address => return .function (img.functionAt? address)
  | .functions => return .functions img.functions
  | .followsItaniumAbi => return .flag img.followsItaniumAbi
  | .findBytes pattern ranges =>
    return .addresses (← img.findBytes s.cancelled pattern (ranges.getD img.dataRanges))
  | .findReferences target alignment =>
    return .addresses (← img.findReferences s.cancelled target alignment)
  | .roots => return .roots s.roots
  | .identify address => do
    match ← s.roots.identify img address with
    | none => return .typeInfo none
    | some t => return .typeInfo (some (t, ← t.nameAddress img))
  | .isPure value symbol => return .flag (s.roots.isPure value symbol)
  | .stores function maxSize => do
    let detector ← img.detector s.listing maxSize
    match function.elim img.functionAt? some with
    | none => return .stores none
    | some f => return .stores (some (← detector f))
  | .isDestructor f => return .flag (namesDestructor s.demangle f.name)

/-- The vtable of a class that starts at a given address, or its own. -/
def chosenVtable (t : TypeInfo) : Option Int → Recover Vtable
  | none => t.vtable s.context
  | some address => return (← t.vtableAt? s.context address).getD .missing

/-- The table of vtables that a correlation uses. -/
def chosenVtt (t : TypeInfo) : VttChoice → Recover (Option Vtt)
  | .own => t.vtt s.context
  | .without => return none
  | .given entries => return some { address := 0, typeInfo := t.address, entries }

/-- The answer to `question` with a store book of its own, which is dropped afterwards. -/
def withOwnStores {α : Type} (question : Recover α) : Recover α := fun known =>
  match question { known with stores := {} } with
  | .ok value learned => .ok value { learned with stores := known.stores }
  | .error fault learned => .error fault { learned with stores := known.stores }

/-- The constructors and destructors of a class, and the functions looked up for them in the
    session's table of stores. -/
def askCorrelation (t : TypeInfo) (what : Correlation) : Recover Answer := do
  let detector ← if what.fromCode then
      Recover.lift (s.image.detector s.listing defaultFunctionSize)
    else pure s.table
  let vtt ← s.chosenVtt t what.vtt
  let v ← s.chosenVtable t what.vtableAt
  let candidates := what.candidates.getD s.image.functions
  let question : Recover Answer := do
    let before := (← get).stores.asked.length
    let assignments ← t.correlate s.context v vtt candidates detector
    let asked := (← get).stores.asked.drop before
    return .assignments assignments (if what.fromCode then [] else asked)
  if what.shareStores then question else withOwnStores question

/-- The answer to a question about a class. -/
def askClass (t : TypeInfo) (question : ClassQuery) : Recover Answer :=
  let ctx := s.context
  match question with
  | .typeName => return .text (some (← t.typeName ctx))
  | .name => return .text (some (← t.name ctx))
  | .uniqueName => return .text (some (← t.uniqueName ctx))
  | .bases => return .bases (← t.bases ctx)
  | .virtualBases => return .addresses ((← t.virtualBases ctx).map (·.address))
  | .ancestors => return .addresses ((← t.ancestors ctx).map (·.address))
  | .baseOffsets => return .placedBases (← t.baseOffsets ctx)
  | .inheritanceFlags => return .number (some (← Recover.lift (t.inheritanceFlags ctx)))
  | .isAbstract => return .flag (← t.isAbstract ctx)
  | .vtable => return .vtable (some (← t.vtable ctx))
  | .vtt => return .vtt (← t.vtt ctx)
  | .locateVtable => return .vtable (some (← t.locateVtable ctx))
  | .vtableAt address => return .vtable (← t.vtableAt? ctx address)
  | .locateVtt vtableAt => do
    let v ← s.chosenVtable t vtableAt
    return .vtt (← t.locateVtt ctx v)
  | .vttAt address vtableAt => do
    let v ← s.chosenVtable t vtableAt
    return .vtt (← t.vttAt? ctx v address)
  | .correlate what => s.askCorrelation t what

/-- The answer to a query that changes nothing but what is known. -/
def recover (query : Query) : Recover Answer := do
  let ctx := s.context
  match query with
  | .image question => Recover.lift (s.askImage question)
  | .ofClass address question =>
    match ← Recover.classAt? ctx address with
    | none => return .noClass
    | some t => s.askClass t question
  | .markAt address => return .mark ((← get).marks.at? address)
  | .markString address => return .mark (← Recover.markString ctx address)
  | .nameAt address =>
    match ← Recover.lift (s.roots.identify s.image address) with
    | none => return .text none
    | some t => return .text (some (← Recover.nameOf ctx t))
  | .typeNameAt address => return .text (some (← Recover.typeNameAt ctx address))
  | .classAt address => return .classInfo (← Recover.classAt? ctx address)
  | .classes => return .classInfos (← Recover.classesMet)
  | .compare first second =>
    let a ← Recover.lift (s.roots.identify s.image first)
    let b ← Recover.lift (s.roots.identify s.image second)
    let _ ← Recover.classAt? ctx first
    let _ ← Recover.classAt? ctx second
    return .comparison a b
  | .findTypeInfo cancelled range name =>
    match ← Recover.findTypeInfo ctx cancelled range name with
    | none => return .typeInfo none
    | some t => return .typeInfo (some (t, ← Recover.lift (t.nameAddress s.image)))
  | .discover => return .classInfos (← Recover.discover ctx)
  | .checkCancelled =>
    Recover.checkCancelled ctx
    return .flag false
  | .cancel => return .flag true
  | .setLimit _ _ => return .flag true

/-- What the user changes by a query. -/
def settingsAfter (query : Query) : Session :=
  match query with
  | .cancel => { s with cancelled := true }
  | .setLimit setting v => { s with limits := s.limits.set setting v }
  | _ => s

/-- The answer to a query, and the session after it.  What was learned before a fault is kept. -/
def ask (query : Query) : Except Fault Answer × Session :=
  match s.recover query s.known with
  | .ok answer known => (.ok answer, { s.settingsAfter query with known := known })
  | .error fault known => (.error fault, { s.settingsAfter query with known := known })

/-- The answers to a list of queries, and the session after them. -/
def run : List Query → Session → List (Except Fault Answer) × Session
  | [], s => ([], s)
  | query :: rest, s =>
    let (answer, next) := s.ask query
    let (answers, last) := run rest next
    (answer :: answers, last)

end Session

end ItaniumRtti
