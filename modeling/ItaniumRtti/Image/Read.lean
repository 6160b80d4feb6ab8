import ItaniumRtti.Bytes.Slice
import ItaniumRtti.Image.Basic

namespace ItaniumRtti

/-!
# Reading an image

* `Image.readBytes?` — a run of bytes;
* `Image.readInt` — an integer of any size;
* `Image.readPointer` — a stored pointer, relocations ignored;
* `Image.relocated?` — the pointer that a relocation leaves in its word;
* `Image.resolve` — the pointer that the running program would find.
-/

namespace Image

variable (img : Image)

/-- The `length` bytes from `address` on, if they lie in the block that `address` lies in.  Bytes
    past the block's contents are missing from the result. -/
def readBytes? (address : Int) (length : Int) : Option (List UInt8) :=
  match img.blockAt? address with
  | none => none
  | some b =>
    if length < 0 || !b.contains address length then none
    else if !b.initialized then some (List.replicate length.toNat 0)
    else some (bytesAt b.data (address - b.start).toNat length.toNat)

/-- The integer of `size` bytes at `address`, if all of them can be read. -/
def readInt (address : Int) (size : Int) (signed : Bool) : Except Fault (Option Int) :=
  match img.readBytes? address size with
  | none => .ok none
  | some bytes =>
    if (bytes.length : Int) ≠ size then .ok none
    else match img.order.value? bytes with
      | none => .error .byteOrder
      | some n => .ok (some (if signed then signedValue bytes.length n else n))

/-- The pointer stored at `address`, whether or not the word is relocated. -/
def readPointer (address : Int) : Except Fault (Option Int) :=
  img.readInt address img.ptr false

/-- The pointer that a relocation leaves in its word, unless its symbol is not defined here. -/
def relocated? (r : Relocation) : Option Int :=
  match r.symbol with
  | none => some r.addend
  | some name => (img.symbolAddress? name).map (· + r.addend)

/-- The pointer that the running program finds at `address`. -/
def resolve (address : Int) : Except Fault (Option Int) :=
  match img.relocationAt? address with
  | some r => .ok (img.relocated? r)
  | none => img.readPointer address

end Image

end ItaniumRtti
