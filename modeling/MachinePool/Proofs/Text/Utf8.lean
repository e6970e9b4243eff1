import MachinePool.Proofs.Text.Base64
import MachinePool.Text.Utf8

/-!
Reading UTF-8 gives back the text that was written.

A character is written as one to four bytes. The first one tells how many follow
(`firstChar_one` to `firstChar_four`), and a byte that follows carries six bits of
the character (`payload_trail`). Replacement characters stand in only for bytes
that no text is written as, so none appears in a text that is read back
(`decodeLossy_encode`).
-/

namespace MachinePool.Text

variable {n : Nat} {rest : List UInt8}

/-! ### Bytes that follow the first one -/

theorem toNat_ofNat (small : n < 256) : (UInt8.ofNat n).toNat = n := UInt8.toNat_ofNat_of_lt' small

/-- The byte for the last six bits of a number. -/
def trail (n : Nat) : UInt8 := UInt8.ofNat (n % 64 + 0x80)

theorem toNat_trail (n : Nat) : (trail n).toNat = n % 64 + 0x80 := toNat_ofNat (by omega)

theorem continues_trail (n : Nat) : continues (trail n) = true := by
  simp only [continues, Bool.and_eq_true, decide_eq_true_eq, UInt8.le_iff_toNat_le, toNat_trail,
    UInt8.reduceToNat]
  omega

theorem payload_trail (n : Nat) : payload (trail n) = n % 64 := by
  rw [payload, toNat_trail]
  omega

/-- A surrogate is what would not go with the first of three bytes. -/
theorem followsLead3_trail (low : 0x7ff < n) (high : n ≤ 0xffff) (valid : n.isValidChar) :
    followsLead3 (UInt8.ofNat (n / 4096 % 16 + 0xe0)) (trail (n / 64)) = true := by
  have lead := toNat_ofNat (n := n / 4096 % 16 + 0xe0) (by omega)
  simp only [followsLead3, continues_trail, Bool.true_and, Bool.and_eq_true, Bool.or_eq_true,
    bne_iff_ne, ne_eq, decide_eq_true_eq, UInt8.le_iff_toNat_le, ← UInt8.toNat_inj, lead,
    toNat_trail, UInt8.reduceToNat]
  unfold Nat.isValidChar at valid
  omega

/-- A number beyond the last character is what would not go with the first of four bytes. -/
theorem followsLead4_trail (low : 0xffff < n) (high : n < 0x110000) :
    followsLead4 (UInt8.ofNat (n / 262144 % 8 + 0xf0)) (trail (n / 4096)) = true := by
  have lead := toNat_ofNat (n := n / 262144 % 8 + 0xf0) (by omega)
  simp only [followsLead4, continues_trail, Bool.true_and, Bool.and_eq_true, Bool.or_eq_true,
    bne_iff_ne, ne_eq, decide_eq_true_eq, UInt8.le_iff_toNat_le, ← UInt8.toNat_inj, lead,
    toNat_trail, UInt8.reduceToNat]
  omega

/-! ### One character -/

theorem firstChar_one (high : n ≤ 0x7f) : firstChar (UInt8.ofNat n) rest = (Char.ofNat n, 0) := by
  have lead := toNat_ofNat (n := n) (by omega)
  simp only [firstChar, UInt8.lt_iff_toNat_lt, lead, UInt8.reduceToNat]
  rw [if_pos (by omega)]

theorem firstChar_two (low : 0x7f < n) (high : n ≤ 0x7ff) :
    firstChar (UInt8.ofNat (n / 64 % 32 + 0xc0)) (trail n :: rest) = (Char.ofNat n, 1) := by
  have lead := toNat_ofNat (n := n / 64 % 32 + 0xc0) (by omega)
  simp only [firstChar, UInt8.lt_iff_toNat_lt, UInt8.le_iff_toNat_le, Bool.and_eq_true,
    decide_eq_true_eq, lead, continues_trail, payload_trail, UInt8.reduceToNat]
  rw [if_neg (by omega), if_pos (by omega), if_pos trivial]
  congr 2
  omega

theorem firstChar_three (low : 0x7ff < n) (high : n ≤ 0xffff) (valid : n.isValidChar) :
    firstChar (UInt8.ofNat (n / 4096 % 16 + 0xe0)) (trail (n / 64) :: trail n :: rest) =
      (Char.ofNat n, 2) := by
  have lead := toNat_ofNat (n := n / 4096 % 16 + 0xe0) (by omega)
  have follows := followsLead3_trail low high valid
  simp only [firstChar, UInt8.lt_iff_toNat_lt, UInt8.le_iff_toNat_le, Bool.and_eq_true,
    decide_eq_true_eq, lead, follows, continues_trail, payload_trail, UInt8.reduceToNat]
  rw [if_neg (by omega), if_neg (by omega), if_pos (by omega), if_neg nofun, if_neg nofun]
  congr 2
  omega

theorem firstChar_four (low : 0xffff < n) (high : n < 0x110000) :
    firstChar (UInt8.ofNat (n / 262144 % 8 + 0xf0))
      (trail (n / 4096) :: trail (n / 64) :: trail n :: rest) = (Char.ofNat n, 3) := by
  have lead := toNat_ofNat (n := n / 262144 % 8 + 0xf0) (by omega)
  have follows := followsLead4_trail low high
  simp only [firstChar, UInt8.lt_iff_toNat_lt, UInt8.le_iff_toNat_le, Bool.and_eq_true,
    decide_eq_true_eq, lead, follows, continues_trail, payload_trail, UInt8.reduceToNat]
  rw [if_neg (by omega), if_neg (by omega), if_neg (by omega), if_pos (by omega), if_neg nofun,
    if_neg nofun, if_neg nofun]
  congr 2
  omega

theorem decodeAfter_of_firstChar {lead : UInt8} {c : Char} {covered : Nat}
    (first : firstChar lead rest = (c, covered)) :
    decodeAfter 0 (lead :: rest) = c :: decodeAfter covered rest := by
  rw [decodeAfter, first]

/-- What a character is written as is read as this character, whatever follows. -/
theorem decodeAfter_utf8EncodeChar (c : Char) (rest : List UInt8) :
    decodeAfter 0 (String.utf8EncodeChar c ++ rest) = c :: decodeAfter 0 rest := by
  have valid : c.toNat.isValidChar := c.valid
  have high : c.toNat < 0x110000 := by
    unfold Nat.isValidChar at valid
    omega
  conv => rhs; rw [← Char.ofNat_toNat c]
  simp only [String.utf8EncodeChar]
  split_ifs with one two three
  · exact decodeAfter_of_firstChar (firstChar_one one)
  · exact decodeAfter_of_firstChar (firstChar_two (Nat.not_le.mp one) two)
  · exact decodeAfter_of_firstChar (firstChar_three (Nat.not_le.mp two) three valid)
  · exact decodeAfter_of_firstChar (firstChar_four (Nat.not_le.mp three) high)

/-! ### Texts -/

/-- The bytes of a text are those of its characters, one after another. -/
theorem encode_ofList (cs : List Char) :
    encode (String.ofList cs) = cs.flatMap String.utf8EncodeChar := by
  change (String.ofList cs).toByteArray.data.toList = _
  rw [String.toByteArray_ofList]
  simp [List.utf8Encode]

/-- A text is read back from its bytes. -/
theorem decodeLossy_encode (s : String) : decodeLossy (encode s) = s := by
  have read (cs : List Char) : decodeAfter 0 (cs.flatMap String.utf8EncodeChar) = cs := by
    induction cs with
    | nil => rfl
    | cons c cs ih => rw [List.flatMap_cons, decodeAfter_utf8EncodeChar, ih]
  obtain ⟨cs, rfl⟩ : ∃ cs, String.ofList cs = s := ⟨s.toList, String.ofList_toList⟩
  rw [decodeLossy, encode_ofList, read]

/-- Different texts have different bytes. -/
theorem encode_injective : Function.Injective encode :=
  Function.LeftInverse.injective decodeLossy_encode

/-- A text of ASCII characters has one byte for each. -/
theorem encode_ofList_of_ascii {cs : List Char} (ascii : ∀ c ∈ cs, c.toNat < 128) :
    encode (String.ofList cs) = cs.map (·.toUInt8) := by
  rw [encode_ofList, List.map_eq_flatMap]
  refine List.flatMap_congr fun c mem => ?_
  have small : c.val.toNat ≤ 127 := Nat.le_of_lt_succ (ascii c mem)
  simp only [String.utf8EncodeChar, if_pos small]
  rfl

/-- The bytes of a text are read as some bytes exactly when it is the base64 text of them. -/
theorem base64_decode_encode_eq_ok_iff {word : String} {bytes : List UInt8} :
    Base64.decode (encode word) = .ok bytes ↔ word = String.ofList (Base64.encode bytes) := by
  have ascii : ∀ c ∈ Base64.encode bytes, c.toNat < 128 :=
    Base64.forall_mem_encode (by decide) (by decide) bytes
  rw [Base64.decode_eq_ok_iff, Base64.encodeBytes, ← encode_ofList_of_ascii ascii]
  exact encode_injective.eq_iff

end MachinePool.Text
