/-!
Reading bytes as UTF-8 text without ever failing: every maximal part of the
bytes that could begin a character but does not complete one is shown as one
replacement character, and so is every byte that can begin none.
-/

namespace MachinePool.Text

/-- U+FFFD, shown in place of bytes that are no character. -/
def replacement : Char := '\ufffd'

/-- Whether a byte may follow the second byte of a character. -/
def continues (b : UInt8) : Bool := 0x80 ≤ b && b ≤ 0xbf

/-- Whether `b` may follow the first byte `lead` of a character of three bytes: no overlong form
and no surrogate. -/
def followsLead3 (lead b : UInt8) : Bool :=
  continues b && (lead != 0xe0 || 0xa0 ≤ b) && (lead != 0xed || b ≤ 0x9f)

/-- Whether `b` may follow the first byte `lead` of a character of four bytes: no overlong form and
nothing beyond U+10FFFF. -/
def followsLead4 (lead b : UInt8) : Bool :=
  continues b && (lead != 0xf0 || 0x90 ≤ b) && (lead != 0xf4 || b ≤ 0x8f)

def payload (b : UInt8) : Nat := b.toNat % 64

/-- The character that `lead` and the bytes after it begin with, and how many bytes after `lead`
it covers. -/
def firstChar (lead : UInt8) (rest : List UInt8) : Char × Nat :=
  if lead < 0x80 then (Char.ofNat lead.toNat, 0)
  else if 0xc2 ≤ lead && lead ≤ 0xdf then
    match rest with
    | b :: _ =>
      if continues b then (Char.ofNat (lead.toNat % 32 * 64 + payload b), 1) else (replacement, 0)
    | [] => (replacement, 0)
  else if 0xe0 ≤ lead && lead ≤ 0xef then
    match rest with
    | b :: c :: _ =>
      if !followsLead3 lead b then (replacement, 0)
      else if !continues c then (replacement, 1)
      else (Char.ofNat ((lead.toNat % 16 * 64 + payload b) * 64 + payload c), 2)
    | [b] => (replacement, if followsLead3 lead b then 1 else 0)
    | [] => (replacement, 0)
  else if 0xf0 ≤ lead && lead ≤ 0xf4 then
    match rest with
    | b :: c :: d :: _ =>
      if !followsLead4 lead b then (replacement, 0)
      else if !continues c then (replacement, 1)
      else if !continues d then (replacement, 2)
      else
        (Char.ofNat (((lead.toNat % 8 * 64 + payload b) * 64 + payload c) * 64 + payload d), 3)
    | [b, c] =>
      (replacement, if !followsLead4 lead b then 0 else if !continues c then 1 else 2)
    | [b] => (replacement, if followsLead4 lead b then 1 else 0)
    | [] => (replacement, 0)
  else (replacement, 0)

/-- The characters of some bytes, the first `covered` of which belong to a character already
read. -/
def decodeAfter : Nat → List UInt8 → List Char
  | _, [] => []
  | covered + 1, _ :: rest => decodeAfter covered rest
  | 0, lead :: rest =>
    let first := firstChar lead rest
    first.1 :: decodeAfter first.2 rest

/-- The text of some bytes, with replacement characters for what is no UTF-8. -/
def decodeLossy (bytes : List UInt8) : String := String.ofList (decodeAfter 0 bytes)

def encode (s : String) : List UInt8 := s.toUTF8.data.toList

end MachinePool.Text
