import ItaniumRtti.Elf.Image
import ItaniumRtti.Files.Basic
import ItaniumRtti.Text.Quoted

namespace ItaniumRtti

/-!
# Loading a program

* `LoadFault` — why a program cannot be loaded, with its wording in `message`;
* `Files.loadElf` — the image of the program in a file, and the file as a whole.
-/

/-- Why a program cannot be loaded. -/
inductive LoadFault where
  /-- The file cannot be read. -/
  | unreadable (path : String) (fault : FileFault)
  /-- The file is no ELF file. -/
  | notElf (path : String)
  /-- The file has not been linked. -/
  | relocatable (path : String)
  deriving DecidableEq, Repr

/-- The wording of a fault. -/
def LoadFault.message : LoadFault → String
  | .unreadable path fault =>
    "cannot read " ++ path ++ ": " ++ fault.message ++ ": " ++ quoteText path
  | .notElf path => path ++ " is not a valid ELF file"
  | .relocatable path => path ++ " is a relocatable object; link it first"

/-- The image of the program in a file, and the file as a whole. -/
def Files.loadElf (files : Files) (path : String) : Except LoadFault (Image × ImageInfo) :=
  let shown := pathText path
  match files.read path with
  | .error fault => .error (.unreadable shown fault)
  | .ok data =>
    match Elf.File.parse? data with
    | none => .error (.notElf shown)
    | some f =>
      if f.isRelocatable then .error (.relocatable shown)
      else
        let image := f.image
        .ok (image, { f.info with path := files.absolute path,
                                  itaniumAbi := image.followsItaniumAbi })

end ItaniumRtti
