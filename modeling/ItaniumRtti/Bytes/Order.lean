namespace ItaniumRtti

/-!
# Integers as bytes

* `littleValue` / `littleBytes` — a natural number and its bytes, least significant first;
* `ByteOrder.value?` / `ByteOrder.bytes?` — the same in a given order;
* `signedValue` — the two's complement reading of an unsigned value.
-/

/-- The order in which the bytes of an integer are stored. -/
inductive ByteOrder where
  /-- Least significant byte first. -/
  | little
  /-- Most significant byte first. -/
  | big
  /-- Some other name: bytes can be copied, but no integer can be converted. -/
  | unknown (name : String)
  deriving DecidableEq, Repr

/-- The name of a byte order. -/
def ByteOrder.name : ByteOrder → String
  | .little => "little"
  | .big => "big"
  | .unknown name => name

/-- The byte order of a given name. -/
def ByteOrder.ofName (name : String) : ByteOrder :=
  if name = "little" then .little else if name = "big" then .big else .unknown name

/-- The number with the given bytes, least significant first. -/
def littleValue : List UInt8 → Nat
  | [] => 0
  | b :: bs => b.toNat + 256 * littleValue bs

/-- The `count` lowest bytes of `n`, least significant first. -/
def littleBytes : Nat → Nat → List UInt8
  | 0, _ => []
  | count + 1, n => UInt8.ofNat (n % 256) :: littleBytes count (n / 256)

/-- The unsigned number that `bytes` stand for. -/
def ByteOrder.value? (order : ByteOrder) (bytes : List UInt8) : Option Nat :=
  match order with
  | .little => some (littleValue bytes)
  | .big => some (littleValue bytes.reverse)
  | .unknown _ => none

/-- The `count` lowest bytes of `n` as they are stored. -/
def ByteOrder.bytes? (order : ByteOrder) (count n : Nat) : Option (List UInt8) :=
  match order with
  | .little => some (littleBytes count n)
  | .big => some (littleBytes count n).reverse
  | .unknown _ => none

/-- The two's complement reading of an unsigned value of `count` bytes. -/
def signedValue (count n : Nat) : Int :=
  if 2 * n < Nat.pow 256 count then n else (n : Int) - Nat.pow 256 count

@[simp] theorem length_littleBytes (count n : Nat) : (littleBytes count n).length = count := by
  induction count generalizing n with
  | zero => rfl
  | succ count ih => simp only [littleBytes, List.length_cons, ih]

theorem littleValue_lt (bytes : List UInt8) : littleValue bytes < Nat.pow 256 bytes.length := by
  induction bytes with
  | nil => exact Nat.one_pos
  | cons b bs ih =>
    have hb : b.toNat < 256 := b.toNat_lt
    show b.toNat + 256 * littleValue bs < Nat.pow 256 bs.length * 256
    omega

theorem littleBytes_littleValue (bytes : List UInt8) :
    littleBytes bytes.length (littleValue bytes) = bytes := by
  induction bytes with
  | nil => rfl
  | cons b bs ih =>
    have hb : b.toNat < 256 := b.toNat_lt
    rw [List.length_cons, littleBytes, littleValue]
    congr 1
    · rw [Nat.add_mul_mod_self_left, Nat.mod_eq_of_lt hb, UInt8.ofNat_toNat]
    · rw [Nat.add_mul_div_left _ _ (by omega), Nat.div_eq_of_lt hb, Nat.zero_add, ih]

theorem littleValue_littleBytes (count n : Nat) :
    littleValue (littleBytes count n) = n % Nat.pow 256 count := by
  induction count generalizing n with
  | zero => exact (Nat.mod_one n).symm
  | succ count ih =>
    have lowest : (UInt8.ofNat (n % 256)).toNat = n % 256 :=
      UInt8.toNat_ofNat_of_lt (Nat.mod_lt n (by decide))
    have power : Nat.pow 256 (count + 1) = 256 * Nat.pow 256 count := Nat.mul_comm _ _
    rw [littleBytes, littleValue, ih, lowest, power, Nat.mod_mul]

end ItaniumRtti
