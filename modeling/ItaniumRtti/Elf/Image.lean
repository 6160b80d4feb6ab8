import ItaniumRtti.Digest.Sha256
import ItaniumRtti.Elf.Relocation
import ItaniumRtti.Report.Model

namespace ItaniumRtti.Elf

/-!
# Files as images

* `File.arch` — the name of a file's architecture;
* `File.blocks` — the sections that lie in memory;
* `File.image` — the program as it lies in memory;
* `File.info` — the file as a whole.
-/

/-- The name of an architecture. -/
def archName (machine : Nat) : String :=
  if machine = machineX86 then "x86"
  else if machine = machineArm then "ARM"
  else if machine = machineX8664 then "x86_64"
  else if machine = machineAArch64 then "AArch64"
  else "unknown(" ++ decimal machine ++ ")"

/-- Whether a section is a block of the program's memory. -/
def Section.isBlock (s : Section) : Bool :=
  s.allocated && !s.threadLocal && s.size ≠ 0 && s.address ≠ 0

namespace File

variable (f : File)

/-- The name of the file's architecture. -/
def arch : String :=
  archName f.header.machine

/-- The blocks of the program's memory, in the order of the sections. -/
def blocks : List Block :=
  (f.sections.filter (·.isBlock)).map fun s =>
    { name := s.name, start := s.address, data := s.contents f.data, size := s.size,
      executable := s.executable, writable := s.writable }

/-- The program as it lies in memory. -/
def image : Image :=
  Image.ofParts f.format.width f.format.order f.arch none f.blocks f.symbols f.relocations

/-- The file as a whole. -/
def info : ImageInfo where
  size := f.data.size
  arch := f.arch
  bits := 8 * f.format.width.bytes
  endian := f.format.order.name
  sha256 := sha256Hex f.data

end File

end ItaniumRtti.Elf
