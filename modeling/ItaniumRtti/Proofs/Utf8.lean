import ItaniumRtti.Text.Utf8

namespace ItaniumRtti

/-!
# Text and its bytes

Decoding keeps track of a character under way and of the bounds of its next byte.  The bytes that
encode a character pass all of these bounds.

* `encodeUtf8_eq` — the bytes of a text are those of its characters, one after the other;
* `Utf8.decodeFrom_encodeChar` — the bytes of a character are read as that character;
* `decodeUtf8_encodeUtf8` — decoding the bytes of a text gives the text back.
-/

/-- Text is encoded character by character. -/
theorem encodeUtf8_eq (text : String) :
    encodeUtf8 text = text.toList.flatMap String.utf8EncodeChar := by
  rw [encodeUtf8, String.toUTF8_eq_toByteArray, ← String.utf8Encode_toList, List.utf8Encode,
    List.toList_data_toByteArray]

namespace Utf8

/-! ### Bytes that begin a character -/

theorem lead_one : ∀ b < 0x80, lead b = ([Char.ofNat b], none) := by
  intro b small
  rw [lead, if_pos small]

theorem lead_two : ∀ high < 32, 2 ≤ high →
    lead (high + 192) = ([], some ⟨1, 0x80, 0xBF, high⟩) := by
  decide

/-- The second byte is bounded below for the first of these, against overlong forms, and above for
    the one that begins the surrogates. -/
theorem lead_three : ∀ high < 16, lead (high + 224) =
    ([], some ⟨2, if high = 0 then 0xA0 else 0x80, if high = 13 then 0x9F else 0xBF, high⟩) := by
  decide

/-- The first byte of four.  The bounds of the next one exclude what three bytes can hold, and what
    is no character. -/
theorem lead_four : ∀ high < 5, lead (high + 240) =
    ([], some ⟨3, if high = 0 then 0x90 else 0x80, if high = 4 then 0x8F else 0xBF, high⟩) := by
  decide

/-- The first byte of a character decides how the next one is read. -/
theorem decodeFrom_lead {first : Nat} (byte : first < 256) {text : List Char}
    {next : Option Pending} (leads : lead first = (text, next)) (bytes : List UInt8) :
    decodeFrom none (UInt8.ofNat first :: bytes) = text ++ decodeFrom next bytes := by
  rw [decodeFrom, UInt8.toNat_ofNat_of_lt' byte, step, leads]

/-! ### Bytes that continue a character -/

variable {lo hi bits low : Nat}

/-- A byte within the bounds brings its six low bits. -/
theorem decodeFrom_more (small : low < 64) (lower : lo ≤ low + 128) (upper : low + 128 ≤ hi)
    (owed : Nat) (bytes : List UInt8) :
    decodeFrom (some ⟨owed + 2, lo, hi, bits⟩) (UInt8.ofNat (low + 128) :: bytes) =
      decodeFrom (some ⟨owed + 1, 0x80, 0xBF, bits * 64 + low⟩) bytes := by
  have byte : low + 128 < UInt8.size := by
    show low + 128 < 256
    omega
  have six : (low + 128) % 64 = low := by omega
  have more : ¬ owed + 2 ≤ 1 := by omega
  simp only [decodeFrom, UInt8.toNat_ofNat_of_lt' byte, step, if_pos (And.intro lower upper), six,
    if_neg more, List.nil_append, Nat.add_one_sub_one]

/-- The last byte completes the character. -/
theorem decodeFrom_last (small : low < 64) (lower : lo ≤ low + 128) (upper : low + 128 ≤ hi)
    (bytes : List UInt8) :
    decodeFrom (some ⟨1, lo, hi, bits⟩) (UInt8.ofNat (low + 128) :: bytes) =
      Char.ofNat (bits * 64 + low) :: decodeFrom none bytes := by
  have byte : low + 128 < UInt8.size := by
    show low + 128 < 256
    omega
  have six : (low + 128) % 64 = low := by omega
  simp only [decodeFrom, UInt8.toNat_ofNat_of_lt' byte, step, if_pos (And.intro lower upper), six,
    Nat.le_refl, if_true, List.singleton_append]

/-! ### Characters -/

/-- **Encoding and decoding agree on characters.**  Whatever follows, the bytes of a character are
    read as that character, and reading goes on after them. -/
theorem decodeFrom_encodeChar (c : Char) (rest : List UInt8) :
    decodeFrom none (String.utf8EncodeChar c ++ rest) = c :: decodeFrom none rest := by
  have valid : c.val.toNat < 0xD800 ∨ 0xDFFF < c.val.toNat ∧ c.val.toNat < 0x110000 := c.valid
  have back : Char.ofNat c.val.toNat = c := c.ofNat_toNat
  rw [String.utf8EncodeChar]
  generalize c.val.toNat = v at valid back ⊢
  by_cases one : v ≤ 127
  · rw [if_pos one]
    show decodeFrom none (UInt8.ofNat v :: rest) = _
    rw [decodeFrom_lead (by omega) (lead_one v (by omega)), back]
    rfl
  rw [if_neg one]
  by_cases two : v ≤ 2047
  · have whole : v / 64 % 32 * 64 + v % 64 = v := by omega
    have leads := lead_two (v / 64 % 32) (by omega) (by omega)
    rw [if_pos two]
    show decodeFrom none (UInt8.ofNat _ :: UInt8.ofNat _ :: rest) = _
    rw [decodeFrom_lead (by omega) leads, List.nil_append,
      decodeFrom_last (by omega) (by omega) (by omega), whole, back]
  rw [if_neg two]
  by_cases three : v ≤ 65535
  · -- the bounds of the second byte hold since `v` is neither below `0x800` nor a surrogate
    have whole : (v / 4096 % 16 * 64 + v / 64 % 64) * 64 + v % 64 = v := by omega
    have leads := lead_three (v / 4096 % 16) (by omega)
    have lower : (if v / 4096 % 16 = 0 then 0xA0 else 0x80) ≤ v / 64 % 64 + 128 := by
      split <;> omega
    have upper : v / 64 % 64 + 128 ≤ if v / 4096 % 16 = 13 then 0x9F else 0xBF := by
      split <;> omega
    rw [if_pos three]
    show decodeFrom none (UInt8.ofNat _ :: UInt8.ofNat _ :: UInt8.ofNat _ :: rest) = _
    rw [decodeFrom_lead (by omega) leads, List.nil_append,
      decodeFrom_more (by omega) lower upper 0,
      decodeFrom_last (by omega) (by omega) (by omega), whole, back]
  · -- and here since `v` lies from `0x10000` to `0x10FFFF`
    have whole :
        ((v / 262144 % 8 * 64 + v / 4096 % 64) * 64 + v / 64 % 64) * 64 + v % 64 = v := by omega
    have leads := lead_four (v / 262144 % 8) (by omega)
    have lower : (if v / 262144 % 8 = 0 then 0x90 else 0x80) ≤ v / 4096 % 64 + 128 := by
      split <;> omega
    have upper : v / 4096 % 64 + 128 ≤ if v / 262144 % 8 = 4 then 0x8F else 0xBF := by
      split <;> omega
    rw [if_neg three]
    show decodeFrom none (UInt8.ofNat _ :: UInt8.ofNat _ :: UInt8.ofNat _ :: UInt8.ofNat _ :: rest)
      = _
    rw [decodeFrom_lead (by omega) leads, List.nil_append,
      decodeFrom_more (by omega) lower upper 1,
      decodeFrom_more (by omega) (by omega) (by omega) 0,
      decodeFrom_last (by omega) (by omega) (by omega), whole, back]

end Utf8

/-- **Encoded text is decoded to the same text.** -/
theorem decodeUtf8_encodeUtf8 (text : String) : decodeUtf8 (encodeUtf8 text) = text := by
  have chars : ∀ l : List Char, Utf8.decodeFrom none (l.flatMap String.utf8EncodeChar) = l := by
    intro l
    induction l with
    | nil => rfl
    | cons c rest ih => rw [List.flatMap_cons, Utf8.decodeFrom_encodeChar, ih]
  rw [decodeUtf8, encodeUtf8_eq, chars, String.ofList_toList]

end ItaniumRtti
