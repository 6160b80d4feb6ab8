import ItaniumRtti.Image.Search
import ItaniumRtti.Proofs.Block

namespace ItaniumRtti

/-!
# Words and their bytes

* `ByteOrder.Known` — integers can be converted in this order;
* `ByteOrder.value?_eq_some_iff` — a number is read exactly from the bytes it is written as;
* `Image.readInt_signed` — the signed reading of a word in terms of the unsigned one;
* `Image.readInt_ok` — integers are read in any known byte order.
-/

/-! ### Byte orders -/

/-- Integers can be converted in this order. -/
def ByteOrder.Known : ByteOrder → Prop
  | .unknown _ => False
  | _ => True

instance (order : ByteOrder) : Decidable order.Known :=
  match order with
  | .little => .isTrue trivial
  | .big => .isTrue trivial
  | .unknown _ => .isFalse id

/-- Bytes have the value whose little-endian bytes they are. -/
theorem littleValue_eq_iff (bytes : List UInt8) (n : Nat) :
    littleValue bytes = n ↔ n < Nat.pow 256 bytes.length ∧ littleBytes bytes.length n = bytes := by
  constructor
  · rintro rfl
    exact ⟨littleValue_lt bytes, littleBytes_littleValue bytes⟩
  · rintro ⟨small, written⟩
    rw [← written, littleValue_littleBytes, Nat.mod_eq_of_lt small]

namespace ByteOrder

/-- A number is read exactly from the bytes that it is written as. -/
theorem value?_eq_some_iff (order : ByteOrder) (bytes : List UInt8) (n : Nat) :
    order.value? bytes = some n ↔
      n < Nat.pow 256 bytes.length ∧ order.bytes? bytes.length n = some bytes := by
  cases order with
  | little =>
    simp only [value?, bytes?, Option.some.injEq]
    exact littleValue_eq_iff bytes n
  | big =>
    simp only [value?, bytes?, Option.some.injEq]
    rw [littleValue_eq_iff, List.length_reverse, List.reverse_eq_iff]
  | unknown name => simp only [value?, bytes?, reduceCtorEq, and_false]

/-- In a known order every list of bytes has a value. -/
theorem value?_isSome {order : ByteOrder} (known : order.Known) (bytes : List UInt8) :
    ∃ n, order.value? bytes = some n := by
  cases order with
  | little => exact ⟨_, rfl⟩
  | big => exact ⟨_, rfl⟩
  | unknown name => exact known.elim

/-- In a known order every number has bytes. -/
theorem bytes?_isSome {order : ByteOrder} (known : order.Known) (count n : Nat) :
    ∃ bytes, order.bytes? count n = some bytes := by
  cases order with
  | little => exact ⟨_, rfl⟩
  | big => exact ⟨_, rfl⟩
  | unknown name => exact known.elim

/-- Numbers have bytes in a known order only. -/
theorem known_of_bytes? {order : ByteOrder} {count n : Nat} {bytes : List UInt8}
    (written : order.bytes? count n = some bytes) : order.Known := by
  cases order with
  | little => trivial
  | big => trivial
  | unknown name => cases written

/-- They have as many as are asked for. -/
theorem length_of_bytes? {order : ByteOrder} {count n : Nat} {bytes : List UInt8}
    (written : order.bytes? count n = some bytes) : bytes.length = count := by
  cases order with
  | little =>
    simp only [bytes?, Option.some.injEq] at written
    rw [← written, length_littleBytes]
  | big =>
    simp only [bytes?, Option.some.injEq] at written
    rw [← written, List.length_reverse, length_littleBytes]
  | unknown name => simp only [bytes?, reduceCtorEq] at written

end ByteOrder

theorem littleValue_replicate_zero (count : Nat) : littleValue (List.replicate count 0) = 0 := by
  induction count with
  | zero => rfl
  | succ count ih => simp only [List.replicate_succ, littleValue, ih, UInt8.toNat_zero]

/-- Bytes that are all zero stand for zero. -/
theorem ByteOrder.eq_zero_of_value?_replicate {order : ByteOrder} {count n : Nat}
    (value : order.value? (List.replicate count 0) = some n) : n = 0 := by
  cases order with
  | little =>
    rw [value?, littleValue_replicate_zero] at value
    exact (Option.some.inj value).symm
  | big =>
    rw [value?, List.reverse_replicate, littleValue_replicate_zero] at value
    exact (Option.some.inj value).symm
  | unknown name => cases value

theorem signedValue_zero (count : Nat) : signedValue count 0 = 0 := by
  have positive : 0 < Nat.pow 256 count := Nat.pow_pos (by omega)
  rw [signedValue, if_pos (by omega)]
  rfl

/-! ### Reading -/

namespace PointerWidth

theorem bytes_pos (w : PointerWidth) : 0 < w.bytes := by
  cases w <;> decide

end PointerWidth

namespace Image

variable {img : Image}

theorem ptr_pos (img : Image) : 0 < img.ptr := by
  have positive := img.width.bytes_pos
  rw [ptr]
  omega

/-- The signed reading of an integer is the two's complement reading of the unsigned one. -/
theorem readInt_signed (img : Image) (address size : Int) :
    img.readInt address size true =
      (img.readInt address size false).map
        (Option.map fun n => signedValue size.toNat n.toNat) := by
  simp only [readInt]
  cases img.readBytes? address size with
  | none => rfl
  | some bytes =>
    -- A read that is cut short has no value, signed or not.
    by_cases whole : (bytes.length : Int) ≠ size
    · simp only [if_pos whole]
      rfl
    · simp only [if_neg whole]
      have length : size.toNat = bytes.length := by omega
      cases img.order.value? bytes with
      | none => rfl
      | some n =>
        rw [length]
        rfl

/-- Reading an integer never fails in a known byte order. -/
theorem readInt_ok (known : img.order.Known) (address size : Int) (signed : Bool) :
    ∃ value, img.readInt address size signed = .ok value := by
  simp only [readInt]
  cases img.readBytes? address size with
  | none => exact ⟨none, rfl⟩
  | some bytes =>
    by_cases whole : (bytes.length : Int) ≠ size
    · exact ⟨none, if_pos whole⟩
    · obtain ⟨n, value⟩ := ByteOrder.value?_isSome known bytes
      simp only [if_neg whole, value]
      exact ⟨_, rfl⟩

/-- An integer that can be read lies in a block. -/
theorem blockAt?_of_readInt {address size : Int} {signed : Bool} {value : Int}
    (read : img.readInt address size signed = .ok (some value)) :
    ∃ b, img.blockAt? address = some b ∧ b.contains address size = true := by
  simp only [readInt, readBytes?] at read
  cases found : img.blockAt? address with
  | none => simp only [found, reduceCtorEq, Except.ok.injEq] at read
  | some b =>
    refine ⟨b, rfl, ?_⟩
    by_cases inside : b.contains address size = true
    · exact inside
    · simp only [found, Bool.not_eq_true _ |>.mp inside, Bool.not_false, Bool.or_true, if_true,
        reduceCtorEq, Except.ok.injEq] at read

end Image

end ItaniumRtti
