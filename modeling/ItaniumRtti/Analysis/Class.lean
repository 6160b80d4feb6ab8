import ItaniumRtti.Report.Model

namespace ItaniumRtti

/-!
# Analysis of one class

* `Recover.indexStores` — the stores of every function, found on first use;
* `Recover.functionsStoring` — the functions that store one of given pointers;
* `TypeInfo.relevantPoints` — the address points of a class and of its ancestors;
* `TypeInfo.stages` — the stages of an analysis, each filling in part of the report;
* `ClassReport.runStages` — runs stages until one meets a malformed class;
* `TypeInfo.report` — the report of a class.
-/

namespace Recover

variable (ctx : Context) (detector : Detector)

/-- Records the stores of each of `functions`. -/
def examine : List Function → Recover Unit
  | [] => return ()
  | f :: rest => do
    checkCancelled ctx
    let stores ← consult detector f
    modify fun known => { known with stores := known.stores.enter f stores }
    examine rest

/-- Records the stores of every function of the program, unless that was done before. -/
def indexStores : Recover Unit := do
  if !(← get).stores.complete then
    examine ctx detector ctx.image.functions
    modify fun known => { known with stores := { known.stores with complete := true } }

/-- The functions that store one of `values` into the object they are given, by address. -/
def functionsStoring (values : List Int) : Recover (List Function) := do
  indexStores ctx detector
  let found := (← get).stores.found
  return ctx.image.functions.filter fun f =>
    (found[f.address]?.getD []).any fun s => values.contains s.value

end Recover

namespace TypeInfo

variable (ctx : Context) (t : TypeInfo)

/-- The address points of the class's vtable and of its ancestors' vtables. -/
def relevantPoints : Recover (List Int) := do
  let own ← t.vtable ctx
  let inherited ← (← t.ancestors ctx).mapM (·.vtable ctx)
  return (own :: inherited).flatMap (·.addressPoints)

/-- The constructors and destructors of the class.  Only functions that store a relevant address
    point are examined closely. -/
def assignments (detector : Detector) : Recover (List Assignment) := do
  let v ← t.vtable ctx
  let vtt ← t.vtt ctx
  let candidates ← Recover.functionsStoring ctx detector (← t.relevantPoints ctx)
  t.correlate ctx v vtt candidates detector

/-- What is reported of a direct base. -/
def baseReport (b : Base) : Recover BaseReport :=
  return { address := b.target.address, name := ← b.target.name ctx, offset := b.offset,
           isVirtual := b.isVirtual, isPublic := b.isPublic }

/-- The stages of the class's analysis. -/
def stages (detector : Option Detector) : List (ClassReport → Recover ClassReport) :=
  [fun report => return { report with typeName := ← t.typeName ctx, name := ← t.name ctx },
   fun report => return { report with bases := ← (← t.bases ctx).mapM (baseReport ctx) },
   fun report => return { report with virtualBases := (← t.virtualBases ctx).map (·.address) },
   fun report => do
    let v ← t.vtable ctx
    return if v.isValid then { report with vtable := some (.ofVtable v) } else report,
   fun report => return { report with isAbstract := ← t.isAbstract ctx },
   fun report => return { report with vtt := ((← t.vtt ctx).map (·.entries)).getD [] },
   fun report => do
    match detector with
    | none => return report
    | some detector =>
      if (← t.vtable ctx).isValid then
        return { report with assignments := ← t.assignments ctx detector }
      return report]

end TypeInfo

/-- The report after the given stages.  A malformed class ends them and is noted as the report's
    error; any other fault ends the whole analysis. -/
def ClassReport.runStages : List (ClassReport → Recover ClassReport) → ClassReport →
    Recover ClassReport
  | [], report => return report
  | stage :: rest, report => fun known =>
    match stage report known with
    | .ok next known => runStages rest next known
    | .error (.malformed what) known => .ok { report with error := what.message } known
    | .error fault known => .error fault known

/-- The report of the class. -/
def TypeInfo.report (ctx : Context) (t : TypeInfo) (detector : Option Detector) :
    Recover ClassReport :=
  ClassReport.runStages (t.stages ctx detector) { address := t.address, kind := t.kind }

end ItaniumRtti
