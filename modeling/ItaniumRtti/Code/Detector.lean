import ItaniumRtti.Code.Facts
import ItaniumRtti.Recovery.Limits

namespace ItaniumRtti

/-!
# Detectors

* `Detector.ofTable` — a detector that knows the answers in advance;
* `Image.codeStop` — where the code of a function ends;
* `Image.codeOf` — the instructions of a function;
* `Image.storesIn` — the stores of a function;
* `Image.detector` — a detector for x86 code.
-/

/-- A detector that looks its answers up. -/
def Detector.ofTable (table : List (Int × List VptrStore)) : Detector :=
  fun f => .ok ((table.lookup f.address).getD [])

/-- Architectures whose code the detector knows. -/
def detectableArchs : List String := ["x86", "i386", "x86_64", "amd64"]

namespace Image

variable (img : Image)

/-- Where the code of `f` ends: after its size, or `maxSize` if that is unknown, but at the latest
    with its block and the block's contents. -/
def codeStop (maxSize : Bound) (f : Function) : Except Fault Int := do
  match (img.blockAt? f.address).filter (·.initialized) with
  | none => return f.address
  | some b =>
    let limit := if f.size = 0 then maxSize else .whole f.size
    let size ← limit.codeSize (b.stop - f.address)
    return f.address + ((img.readBytes? f.address size).getD []).length

/-- The instructions of `f`.  A function of unknown size ends with its first return. -/
def codeOf (listing : Listing) (maxSize : Bound) (f : Function) :
    Except Fault (List Instruction) := do
  let run := listing.run f.address (← img.codeStop maxSize f)
  return if f.size = 0 then run.takeWhile (·.operation ≠ .ret) else run

/-- The constant pointers that `f` stores, in instruction order. -/
def storesIn (listing : Listing) (maxSize : Bound) (f : Function) :
    Except Fault (List VptrStore) := do
  Facts.stores img (.atEntry img.width) (← img.codeOf listing maxSize f)

/-- A detector for the image's code, if its architecture is known. -/
def detector (listing : Listing) (maxSize : Bound) : Except Fault Detector :=
  if detectableArchs.contains img.arch.toLower then .ok (img.storesIn listing maxSize)
  else .error (.noDetector img.arch)

end Image

end ItaniumRtti
