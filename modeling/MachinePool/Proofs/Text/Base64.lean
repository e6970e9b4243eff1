import MachinePool.Proofs.Checks
import MachinePool.Text.Base64
import Mathlib.Tactic.SplitIfs

/-!
Base64 texts stand for one row of bytes each, and each row of bytes has one text.

A group of characters is read as some bytes exactly when it is the group that is
written for them (`oneByte_eq_ok_iff`, `twoBytes_eq_ok_iff`, `threeBytes_eq_iff`),
so reading accepts exactly what is written (`decode_eq_ok_iff`): no text without
its filling, and none with bits in it that are left unused. What a text is refused
for is found in the text where the fault says (`tells_of_decode`).
-/

namespace MachinePool.Text.Base64

variable {a b c d : UInt8} {text bytes : List UInt8} {n p q r s offset : Nat}

/-! ### Sextets -/

def sextetByte (n : Nat) : UInt8 := (sextetChar n).toUInt8

/-- A byte stands for the six bits it is written for. -/
theorem sextet?_eq_some_iff : sextet? b = some n ↔ n < 64 ∧ b = sextetByte n := by
  constructor
  · intro value
    have read : ∀ k < 256, (sextet? (UInt8.ofNat k)).all fun n =>
        n < 64 ∧ UInt8.ofNat k = sextetByte n := by decide +kernel
    have byte := read b.toNat b.toNat_lt
    rw [UInt8.ofNat_toNat, value] at byte
    exact of_decide_eq_true byte
  · rintro ⟨small, rfl⟩
    have written : ∀ n < 64, sextet? (sextetByte n) = some n := by decide
    exact written n small

theorem readSextet_eq_ok_iff : readSextet offset b = .ok n ↔ sextet? b = some n := by
  rw [readSextet]
  cases sextet? b <;> simp

theorem sextetByte_ne_filling : ∀ n < 64, sextetByte n ≠ filling := by decide

/-! ### Groups -/

theorem ofNat_eq {x : UInt8} (value : n = x.toNat) : UInt8.ofNat n = x := by
  rw [value, UInt8.ofNat_toNat]

/-- A group with two fillings is read as the byte it is written for. -/
theorem oneByte_eq_ok_iff (smallP : p < 64) (smallQ : q < 64) :
    oneByte offset b d p q = .ok bytes ↔ d = filling ∧
      ∃ x : UInt8, bytes = [x] ∧ p = x.toNat / 4 ∧ q = x.toNat % 4 * 16 := by
  unfold oneByte
  constructor
  · intro read
    split_ifs at read with filled unused
    obtain rfl := Except.ok.inj read
    refine ⟨not_not.mp filled, _, rfl, ?_⟩
    rw [UInt8.toNat_ofNat']
    omega
  · rintro ⟨rfl, x, rfl, rfl, rfl⟩
    have boundX := x.toNat_lt
    rw [if_neg (not_not.mpr rfl), if_neg (by omega), ofNat_eq (x := x) (by omega)]

/-- A group with one filling is read as the bytes it is written for. -/
theorem twoBytes_eq_ok_iff (smallP : p < 64) (smallQ : q < 64) (smallR : r < 64) :
    twoBytes offset c p q r = .ok bytes ↔
      ∃ x y : UInt8, bytes = [x, y] ∧ p = x.toNat / 4 ∧ q = x.toNat % 4 * 16 + y.toNat / 16 ∧
        r = y.toNat % 16 * 4 := by
  unfold twoBytes
  constructor
  · intro read
    split_ifs at read with unused
    obtain rfl := Except.ok.inj read
    refine ⟨_, _, rfl, ?_⟩
    simp only [UInt8.toNat_ofNat']
    omega
  · rintro ⟨x, y, rfl, rfl, rfl, rfl⟩
    have boundX := x.toNat_lt
    have boundY := y.toNat_lt
    rw [if_neg (by omega), ofNat_eq (x := x) (by omega), ofNat_eq (x := y) (by omega)]

/-- A full group is read as the bytes it is written for. -/
theorem threeBytes_eq_iff (smallP : p < 64) (smallQ : q < 64) (smallR : r < 64) (smallS : s < 64) :
    threeBytes p q r s = bytes ↔
      ∃ x y z : UInt8, bytes = [x, y, z] ∧ p = x.toNat / 4 ∧
        q = x.toNat % 4 * 16 + y.toNat / 16 ∧ r = y.toNat % 16 * 4 + z.toNat / 64 ∧
        s = z.toNat % 64 := by
  unfold threeBytes
  constructor
  · rintro rfl
    refine ⟨_, _, _, rfl, ?_⟩
    simp only [UInt8.toNat_ofNat']
    omega
  · rintro ⟨x, y, z, rfl, rfl, rfl, rfl, rfl⟩
    have boundX := x.toNat_lt
    have boundY := y.toNat_lt
    have boundZ := z.toNat_lt
    rw [ofNat_eq (x := x) (by omega), ofNat_eq (x := y) (by omega), ofNat_eq (x := z) (by omega)]

/-! ### Texts -/

def encodeBytes (bytes : List UInt8) : List UInt8 := (encode bytes).map (·.toUInt8)

@[simp] theorem encodeBytes_singleton (x : UInt8) :
    encodeBytes [x] =
      [sextetByte (x.toNat / 4), sextetByte (x.toNat % 4 * 16), filling, filling] := rfl

@[simp] theorem encodeBytes_pair (x y : UInt8) :
    encodeBytes [x, y] = [sextetByte (x.toNat / 4), sextetByte (x.toNat % 4 * 16 + y.toNat / 16),
      sextetByte (y.toNat % 16 * 4), filling] := rfl

@[simp] theorem encodeBytes_cons_cons_cons (x y z : UInt8) (rest : List UInt8) :
    encodeBytes (x :: y :: z :: rest) = sextetByte (x.toNat / 4) ::
      sextetByte (x.toNat % 4 * 16 + y.toNat / 16) ::
      sextetByte (y.toNat % 16 * 4 + z.toNat / 64) :: sextetByte (z.toNat % 64) ::
      encodeBytes rest := rfl

/-- Only what is written for some bytes is read as them. -/
theorem eq_encodeBytes_of_decodeFrom (read : decodeFrom offset text = .ok bytes) :
    text = encodeBytes bytes := by
  fun_induction decodeFrom offset text generalizing bytes with
  | case1 offset a b c d rest ih =>
      simp only [bind_eq_ok_iff, readSextet_eq_ok_iff, sextet?_eq_some_iff] at read
      obtain ⟨p, ⟨smallP, rfl⟩, q, ⟨smallQ, rfl⟩, read⟩ := read
      -- Only the last group may be filled up, after two characters or after three.
      by_cases one : rest = [] ∧ c = filling
      · rw [if_pos one] at read
        obtain ⟨rfl, rfl⟩ := one
        obtain ⟨rfl, x, rfl, rfl, rfl⟩ := (oneByte_eq_ok_iff smallP smallQ).mp read
        rfl
      rw [if_neg one, bind_eq_ok_iff] at read
      obtain ⟨r, third, read⟩ := read
      obtain ⟨smallR, rfl⟩ := sextet?_eq_some_iff.mp (readSextet_eq_ok_iff.mp third)
      by_cases two : rest = [] ∧ d = filling
      · rw [if_pos two] at read
        obtain ⟨rfl, rfl⟩ := two
        obtain ⟨x, y, rfl, rfl, rfl, rfl⟩ := (twoBytes_eq_ok_iff smallP smallQ smallR).mp read
        rfl
      rw [if_neg two] at read
      simp only [bind_eq_ok_iff, readSextet_eq_ok_iff, sextet?_eq_some_iff] at read
      obtain ⟨s, ⟨smallS, rfl⟩, back, others, read⟩ := read
      obtain rfl := Except.ok.inj read
      obtain ⟨x, y, z, group, rfl, rfl, rfl, rfl⟩ :=
        (threeBytes_eq_iff smallP smallQ smallR smallS).mp rfl
      rw [group, ih others]
      rfl
  | case2 offset a b c =>
      simp only [bind_eq_ok_iff] at read
      obtain ⟨p, -, q, -, read⟩ := read
      split at read
      · cases read
      · obtain ⟨r, -, read⟩ := bind_eq_ok_iff.mp read
        cases read
  | case3 offset a b =>
      simp only [bind_eq_ok_iff] at read
      obtain ⟨p, -, q, -, read⟩ := read
      cases read
  | case4 offset a =>
      obtain ⟨p, -, read⟩ := bind_eq_ok_iff.mp read
      cases read
  | case5 =>
      cases read
      rfl

/-- What is written for some bytes is read as them, at whatever offset. -/
theorem decodeFrom_encodeBytes (offset : Nat) (bytes : List UInt8) :
    decodeFrom offset (encodeBytes bytes) = .ok bytes := by
  fun_induction encode bytes generalizing offset with
  | case1 => rfl
  | case2 x =>
      have boundX := x.toNat_lt
      rw [encodeBytes_singleton, decodeFrom]
      simp only [bind_eq_ok_iff, readSextet_eq_ok_iff, sextet?_eq_some_iff]
      refine ⟨_, ⟨by omega, rfl⟩, _, ⟨by omega, rfl⟩, ?_⟩
      rw [if_pos (by simp)]
      exact (oneByte_eq_ok_iff (by omega) (by omega)).mpr ⟨rfl, x, rfl, rfl, rfl⟩
  | case3 x y =>
      have boundX := x.toNat_lt
      have boundY := y.toNat_lt
      have third := sextetByte_ne_filling (y.toNat % 16 * 4) (by omega)
      rw [encodeBytes_pair, decodeFrom]
      simp only [third, and_false, if_false, and_self, if_true, bind_eq_ok_iff, readSextet_eq_ok_iff,
        sextet?_eq_some_iff]
      refine ⟨_, ⟨by omega, rfl⟩, _, ⟨by omega, rfl⟩, _, ⟨by omega, rfl⟩, ?_⟩
      exact (twoBytes_eq_ok_iff (by omega) (by omega) (by omega)).mpr ⟨x, y, rfl, rfl, rfl, rfl⟩
  | case4 x y z rest ih =>
      have boundX := x.toNat_lt
      have boundY := y.toNat_lt
      have boundZ := z.toNat_lt
      have third := sextetByte_ne_filling (y.toNat % 16 * 4 + z.toNat / 64) (by omega)
      have fourth := sextetByte_ne_filling (z.toNat % 64) (by omega)
      rw [encodeBytes_cons_cons_cons, decodeFrom]
      simp only [third, fourth, and_false, if_false, ih, bind_eq_ok_iff, readSextet_eq_ok_iff,
        sextet?_eq_some_iff]
      refine ⟨_, ⟨by omega, rfl⟩, _, ⟨by omega, rfl⟩, _, ⟨by omega, rfl⟩, _, ⟨by omega, rfl⟩, _, rfl,
        ?_⟩
      have group := (threeBytes_eq_iff (by omega) (by omega) (by omega) (by omega)).mpr
        ⟨x, y, z, rfl, rfl, rfl, rfl, rfl⟩
      rw [group]
      rfl

theorem length_encodeBytes (bytes : List UInt8) : (encodeBytes bytes).length % 4 = 0 := by
  fun_induction encode bytes with
  | case1 => rfl
  | case2 x => simp
  | case3 x y => simp
  | case4 x y z rest ih =>
      simp only [encodeBytes_cons_cons_cons, List.length_cons]
      omega

/-- A text is read as some bytes exactly when it is what is written for them. -/
theorem decode_eq_ok_iff : decode text = .ok bytes ↔ text = encodeBytes bytes := by
  constructor
  · intro read
    unfold decode at read
    split at read
    · cases read
    · exact eq_encodeBytes_of_decodeFrom read
  · rintro rfl
    have whole : trailing? (encodeBytes bytes) = none := by
      rw [trailing?, if_neg (by rw [length_encodeBytes]; decide)]
    rw [decode, whole]
    exact decodeFrom_encodeBytes 0 bytes

/-- Different bytes have different texts. -/
theorem encode_injective : Function.Injective encode := by
  intro bytes bytes' same
  have read : decode (encodeBytes bytes) = .ok bytes := decode_eq_ok_iff.mpr rfl
  rw [encodeBytes, same] at read
  exact Except.ok.inj (read.symm.trans (decode_eq_ok_iff.mpr rfl))

theorem encode_eq_nil_iff : encode bytes = [] ↔ bytes = [] := by
  rw [← encode_injective.eq_iff]
  rfl

/-- A text is made of characters for sextets and of filling. -/
theorem forall_mem_encode {P : Char → Prop} (sextets : ∀ n < 64, P (sextetChar n))
    (filling : P '=') (bytes : List UInt8) : ∀ c ∈ encode bytes, P c := by
  fun_induction encode bytes with
  | case1 => nofun
  | case2 x =>
      have boundX := x.toNat_lt
      simp only [List.forall_mem_cons]
      exact ⟨sextets _ (by omega), sextets _ (by omega), filling, filling, nofun⟩
  | case3 x y =>
      have boundX := x.toNat_lt
      have boundY := y.toNat_lt
      simp only [List.forall_mem_cons]
      exact ⟨sextets _ (by omega), sextets _ (by omega), sextets _ (by omega), filling, nofun⟩
  | case4 x y z rest ih =>
      have boundX := x.toNat_lt
      have boundY := y.toNat_lt
      have boundZ := z.toNat_lt
      simp only [List.forall_mem_cons]
      exact ⟨sextets _ (by omega), sextets _ (by omega), sextets _ (by omega),
        sextets _ (by omega), ih⟩

/-! ### Faults -/

/-- What a fault says of a text: the byte it names stands where it says and is out of place there,
or the length is one that no text of groups has. Each filling takes two bits from the last byte
before it, which have to be zero. -/
def Fault.Tells (text : List UInt8) : Fault → Prop
  | strayByte byte offset => text[offset]? = some byte ∧ sextet? byte = none
  | wrongLength length => text.length = length ∧ length % 4 = 1
  | strayBits byte offset => text[offset]? = some byte ∧ ∃ fillings n,
      text.drop (offset + 1) = List.replicate fillings filling ∧ sextet? byte = some n ∧
        n % Nat.pow 4 fillings ≠ 0
  | missingFilling => text.length % 4 = 2 ∨ text.length % 4 = 3

theorem sextet?_filling : sextet? filling = none := by decide

theorem failsOnly_readSextet (here : text[offset]? = some b) :
    FailsOnly (Fault.Tells text) (readSextet offset b) := by
  unfold readSextet
  split
  · exact .ok _
  · next nothing => exact .error ⟨here, nothing⟩

theorem failsOnly_oneByte (before : List UInt8) (value : sextet? b = some q) :
    FailsOnly (Fault.Tells (before ++ [a, b, filling, d])) (oneByte before.length b d p q) := by
  unfold oneByte
  split_ifs with unfilled unused
  · exact .error ⟨by simp, sextet?_filling⟩
  · refine .error ⟨by simp, 2, q, ?_, value, unused⟩
    rw [Nat.add_assoc, List.drop_length_add_append]
    simpa using unfilled
  · exact .ok _

theorem failsOnly_twoBytes (before : List UInt8) (value : sextet? c = some r) :
    FailsOnly (Fault.Tells (before ++ [a, b, c, filling])) (twoBytes before.length c p q r) := by
  unfold twoBytes
  split_ifs with unused
  · refine .error ⟨by simp, 1, r, ?_, value, unused⟩
    rw [Nat.add_assoc, List.drop_length_add_append]
    rfl
  · exact .ok _

/-- After some whole groups, groups are refused for what is in the text. -/
theorem failsOnly_decodeFrom (before : List UInt8) (whole : before.length % 4 = 0) :
    FailsOnly (Fault.Tells (before ++ text)) (decodeFrom before.length text) := by
  generalize at_ : before.length = offset at whole
  fun_induction decodeFrom offset text generalizing before with
  | case1 offset a b c d rest ih =>
      subst at_
      refine (failsOnly_readSextet (by simp)).bind fun p => ?_
      refine (failsOnly_readSextet (by simp)).bind_of_ok fun q second => ?_
      split
      · next one =>
          obtain ⟨rfl, rfl⟩ := one
          exact failsOnly_oneByte before (readSextet_eq_ok_iff.mp second)
      refine (failsOnly_readSextet (by simp)).bind_of_ok fun r third => ?_
      split
      · next two =>
          obtain ⟨rfl, rfl⟩ := two
          exact failsOnly_twoBytes before (readSextet_eq_ok_iff.mp third)
      refine (failsOnly_readSextet (by simp)).bind fun s => ?_
      have others := ih (before ++ [a, b, c, d]) (by simp) (by omega)
      rw [List.append_assoc] at others
      exact others.bind fun back => .ok _
  | case2 offset a b c =>
      subst at_
      have length : (before ++ [a, b, c]).length % 4 = 3 := by simp; omega
      refine (failsOnly_readSextet (by simp)).bind fun p => ?_
      refine (failsOnly_readSextet (by simp)).bind fun q => ?_
      split
      · exact .error (.inr length)
      · exact (failsOnly_readSextet (by simp)).bind fun r => .error (.inr length)
  | case3 offset a b =>
      subst at_
      have length : (before ++ [a, b]).length % 4 = 2 := by simp; omega
      refine (failsOnly_readSextet (by simp)).bind fun p => ?_
      exact (failsOnly_readSextet (by simp)).bind fun q => .error (.inl length)
  | case4 offset a =>
      subst at_
      exact (failsOnly_readSextet (by simp)).bind fun p => .error ⟨by simp, by omega⟩
  | case5 => exact .ok _

/-- What a text is refused for is so. -/
theorem tells_of_decode {fault : Fault} (refused : decode text = .error fault) :
    fault.Tells text := by
  unfold decode at refused
  split at refused
  · next b trailing =>
      cases refused
      unfold trailing? at trailing
      split_ifs at trailing
      obtain ⟨last, stray⟩ := Option.filter_eq_some_iff.mp trailing
      rw [List.getLast?_eq_getElem?] at last
      simp only [Bool.and_eq_true, Option.isNone_iff_eq_none] at stray
      exact ⟨last, stray.2⟩
  · exact failsOnly_decodeFrom [] rfl fault refused

example : decode [0x41, 0x2a, 0x3d, 0x3d] = .error (.strayByte 0x2a 1) := by decide

end MachinePool.Text.Base64
