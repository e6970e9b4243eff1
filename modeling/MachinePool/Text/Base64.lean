/-!
Base64 with the standard alphabet: three bytes are four characters of six bits,
and a last group of one or two bytes is filled up with `=`.

A text is accepted only in the form `encode` writes: the filling is there and
the bits it leaves unused are zero. Reading goes over the bytes of the text and
stops at the first that is out of place (`Fault`).
-/

namespace MachinePool.Text.Base64

/-! ### Writing -/

def sextetChar (n : Nat) : Char :=
  if n < 26 then Char.ofNat ('A'.toNat + n)
  else if n < 52 then Char.ofNat ('a'.toNat + (n - 26))
  else if n < 62 then Char.ofNat ('0'.toNat + (n - 52))
  else if n = 62 then '+'
  else '/'

def encode : List UInt8 → List Char
  | [] => []
  | [x] =>
    [sextetChar (x.toNat / 4), sextetChar (x.toNat % 4 * 16), '=', '=']
  | [x, y] =>
    [sextetChar (x.toNat / 4), sextetChar (x.toNat % 4 * 16 + y.toNat / 16),
      sextetChar (y.toNat % 16 * 4), '=']
  | x :: y :: z :: rest =>
    sextetChar (x.toNat / 4) :: sextetChar (x.toNat % 4 * 16 + y.toNat / 16) ::
      sextetChar (y.toNat % 16 * 4 + z.toNat / 64) :: sextetChar (z.toNat % 64) :: encode rest

/-! ### Reading -/

/-- Why a text is not accepted. Offsets count the bytes of the text. -/
inductive Fault where
  /-- A byte that stands for nothing, or a filling that does not end the text. -/
  | strayByte (byte : UInt8) (offset : Nat)
  /-- One character is left after the groups of four. -/
  | wrongLength (length : Nat)
  /-- The last character before the filling has bits that belong to no byte. -/
  | strayBits (byte : UInt8) (offset : Nat)
  | missingFilling
  deriving DecidableEq, Repr

def Fault.message : Fault → String
  | strayByte byte offset =>
    "Invalid symbol " ++ toString byte.toNat ++ ", offset " ++ toString offset ++ "."
  | wrongLength length => "Invalid input length: " ++ toString length
  | strayBits byte offset =>
    "Invalid last symbol " ++ toString byte.toNat ++ ", offset " ++ toString offset ++ "."
  | missingFilling => "Invalid padding"

def filling : UInt8 := 0x3d

/-- The six bits that a byte of a text stands for. -/
def sextet? (b : UInt8) : Option Nat :=
  if 0x41 ≤ b ∧ b ≤ 0x5a then some (b.toNat - 0x41)
  else if 0x61 ≤ b ∧ b ≤ 0x7a then some (b.toNat - 0x61 + 26)
  else if 0x30 ≤ b ∧ b ≤ 0x39 then some (b.toNat - 0x30 + 52)
  else if b = 0x2b then some 62
  else if b = 0x2f then some 63
  else none

def readSextet (offset : Nat) (b : UInt8) : Except Fault Nat :=
  match sextet? b with
  | some n => .ok n
  | none => .error (.strayByte b offset)

/-- The one byte of a group at an offset that is filled up after its second character `b`. -/
def oneByte (offset : Nat) (b d : UInt8) (p q : Nat) : Except Fault (List UInt8) :=
  if d ≠ filling then .error (.strayByte filling (offset + 2))
  else if q % 16 ≠ 0 then .error (.strayBits b (offset + 1))
  else .ok [UInt8.ofNat (p * 4 + q / 16)]

/-- The two bytes of a group at an offset that is filled up after its third character `c`. -/
def twoBytes (offset : Nat) (c : UInt8) (p q r : Nat) : Except Fault (List UInt8) :=
  if r % 4 ≠ 0 then .error (.strayBits c (offset + 2))
  else .ok [UInt8.ofNat (p * 4 + q / 16), UInt8.ofNat (q % 16 * 16 + r / 4)]

def threeBytes (p q r s : Nat) : List UInt8 :=
  [UInt8.ofNat (p * 4 + q / 16), UInt8.ofNat (q % 16 * 16 + r / 4), UInt8.ofNat (r % 4 * 64 + s)]

/-- The bytes of the groups that begin at an offset. Filling may only stand in the last group. -/
def decodeFrom (offset : Nat) : List UInt8 → Except Fault (List UInt8)
  | a :: b :: c :: d :: rest => do
    let p ← readSextet offset a
    let q ← readSextet (offset + 1) b
    if rest = [] ∧ c = filling then
      oneByte offset b d p q
    else
      let r ← readSextet (offset + 2) c
      if rest = [] ∧ d = filling then
        twoBytes offset c p q r
      else
        let s ← readSextet (offset + 3) d
        let back ← decodeFrom (offset + 4) rest
        return threeBytes p q r s ++ back
  | [a, b, c] => do
    let _ ← readSextet offset a
    let _ ← readSextet (offset + 1) b
    if c = filling then
      throw .missingFilling
    else
      let _ ← readSextet (offset + 2) c
      throw .missingFilling
  | [a, b] => do
    let _ ← readSextet offset a
    let _ ← readSextet (offset + 1) b
    throw .missingFilling
  | [a] => do
    let _ ← readSextet offset a
    throw (.wrongLength (offset + 1))
  | [] => .ok []

/-- A last byte that stands for nothing and is alone in its group. -/
def trailing? (text : List UInt8) : Option UInt8 :=
  if text.length % 4 = 1 then
    text.getLast?.filter fun b => b ≠ filling && (sextet? b).isNone
  else none

/-- The bytes of a text, if it is the text of some bytes. A stray byte that trails the groups is told
before anything else. -/
def decode (text : List UInt8) : Except Fault (List UInt8) :=
  match trailing? text with
  | some b => .error (.strayByte b (text.length - 1))
  | none => decodeFrom 0 text

end MachinePool.Text.Base64
