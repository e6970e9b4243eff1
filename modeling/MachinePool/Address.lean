import MachinePool.Text.Digits

/-!
IP addresses and their texts.

An address has many spellings and one canonical text, `Address.text`. Reading
(`Address.ofText?`) takes four decimal octets without leading zeros, or eight
groups of one to four hexadecimal digits of either case, where `::` stands for
at least one group of zeros and the last two groups may be spelled as four
octets.

The canonical text writes groups in lower case without leading zeros, the
longest run of at least two zero groups as `::` (the first of several longest
ones), and octets only for the addresses that stand for an IPv4 address
(`::ffff:a.b.c.d`).
-/

namespace MachinePool

/-- An IP address: four octets or eight groups of sixteen bits. -/
inductive Address where
  | v4 (a b c d : UInt8)
  | v6 (groups : { gs : List UInt16 // gs.length = 8 })
  deriving DecidableEq, Repr

namespace Address

open Text

/-! ### Reading -/

/-- The value of one decimal octet: one to three digits without a leading zero. -/
def octet? (cs : List Char) : Option UInt8 :=
  if cs.length ≤ 3 ∧ (cs.head? = some '0' → cs.length = 1) then
    (readDigits? 10 cs).bind fun n => if n < 256 then some (UInt8.ofNat n) else none
  else none

def octets? (cs : List Char) : Option (UInt8 × UInt8 × UInt8 × UInt8) :=
  match split '.' cs with
  | [a, b, c, d] => do
    let a ← octet? a
    let b ← octet? b
    let c ← octet? c
    let d ← octet? d
    some (a, b, c, d)
  | _ => none

/-- The value of one group: one to four hexadecimal digits. -/
def group? (cs : List Char) : Option UInt16 :=
  if cs.length ≤ 4 then (readDigits? 16 cs).map UInt16.ofNat else none

def pairGroup (high low : UInt8) : UInt16 := UInt16.ofNat (high.toNat * 256 + low.toNat)

/-- The values of a row of groups, the last of which may be four octets. -/
def mixedGroups? : List (List Char) → Option (List UInt16)
  | [] => some []
  | [last] =>
    match octets? last with
    | some (a, b, c, d) => some [pairGroup a b, pairGroup c d]
    | none => (group? last).map ([·])
  | g :: rest => do
    let g ← group? g
    let rest ← mixedGroups? rest
    some (g :: rest)

/-- The fields of a row of groups between colons; an empty row has none. -/
def groupFields (cs : List Char) : List (List Char) := if cs = [] then [] else split ':' cs

/-- The texts before and after the first `::`. -/
def splitGap : List Char → Option (List Char × List Char)
  | [] => none
  | ':' :: ':' :: rest => some ([], rest)
  | c :: rest => (splitGap rest).map fun (before, after) => (c :: before, after)

def ofGroups? (gs : List UInt16) : Option Address :=
  if h : gs.length = 8 then some (.v6 ⟨gs, h⟩) else none

def readV6? (cs : List Char) : Option Address :=
  match splitGap cs with
  | none => (mixedGroups? (groupFields cs)).bind ofGroups?
  | some (before, after) => do
    let front ← (groupFields before).mapM group?
    let back ← mixedGroups? (groupFields after)
    if front.length + back.length ≤ 7 then
      ofGroups? (front ++ List.replicate (8 - (front.length + back.length)) 0 ++ back)
    else none

def ofText? (s : String) : Option Address :=
  match octets? s.toList with
  | some (a, b, c, d) => some (.v4 a b c d)
  | none => readV6? s.toList

/-! ### Writing -/

def octetsText (a b c d : UInt8) : List Char :=
  decimalDigits a.toNat ++ '.' :: decimalDigits b.toNat ++ '.' :: decimalDigits c.toNat ++
    '.' :: decimalDigits d.toNat

def groupsText (gs : List UInt16) : List Char :=
  [':'].intercalate (gs.map fun g => hexDigits g.toNat)

def leadingZeros (gs : List UInt16) : Nat := (gs.takeWhile (· = 0)).length

/-- The start and length of the longest run of zero groups, the first of several; `best` is what
was found before position `at`. -/
def longestZeroRunFrom (at_ : Nat) (best : Nat × Nat) : List UInt16 → Nat × Nat
  | [] => best
  | g :: gs =>
    let here := leadingZeros (g :: gs)
    longestZeroRunFrom (at_ + 1) (if best.2 < here then (at_, here) else best) gs

def longestZeroRun (gs : List UInt16) : Nat × Nat := longestZeroRunFrom 0 (0, 0) gs

/-- Eight groups with the longest run of at least two zeros as `::`. -/
def shortened (gs : List UInt16) : List Char :=
  let (start, length) := longestZeroRun gs
  if 1 < length then
    groupsText (gs.take start) ++ [':', ':'] ++ groupsText (gs.drop (start + length))
  else groupsText gs

def groupsOrMappedText (gs : List UInt16) : List Char :=
  match gs with
  | [0, 0, 0, 0, 0, 0xffff, high, low] =>
    [':', ':', 'f', 'f', 'f', 'f', ':'] ++
      octetsText (UInt8.ofNat (high.toNat / 256)) (UInt8.ofNat high.toNat)
        (UInt8.ofNat (low.toNat / 256)) (UInt8.ofNat low.toNat)
  | _ => shortened gs

/-- The canonical text. -/
def text : Address → String
  | v4 a b c d => String.ofList (octetsText a b c d)
  | v6 groups => String.ofList (groupsOrMappedText groups.1)

end Address

end MachinePool
