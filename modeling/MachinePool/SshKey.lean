import MachinePool.Text.Base64
import MachinePool.Text.Blank
import MachinePool.Text.Utf8

/-!
Lines of an authorized-keys file: `[options] <type> <base64 data> [comment]`.

The data is a row of byte strings, each after its length in four bytes, most
significant first (`wireString`). The first names the type again, and each type
has a fixed number of fields after it. `check` accepts a line exactly when the
data is such a row and nothing follows it.
-/

namespace MachinePool

inductive KeyType where
  | ed25519
  | rsa
  | dss
  | ecdsaP256
  | ecdsaP384
  | ecdsaP521
  | hardwareEd25519
  | hardwareEcdsaP256
  deriving DecidableEq, Repr

namespace KeyType

/-- The word a line and the key data name the type with. -/
def name : KeyType → String
  | ed25519 => "ssh-ed25519"
  | rsa => "ssh-rsa"
  | dss => "ssh-dss"
  | ecdsaP256 => "ecdsa-sha2-nistp256"
  | ecdsaP384 => "ecdsa-sha2-nistp384"
  | ecdsaP521 => "ecdsa-sha2-nistp521"
  | hardwareEd25519 => "sk-ssh-ed25519@openssh.com"
  | hardwareEcdsaP256 => "sk-ecdsa-sha2-nistp256@openssh.com"

def all : List KeyType :=
  [ed25519, rsa, dss, ecdsaP256, ecdsaP384, ecdsaP521, hardwareEd25519, hardwareEcdsaP256]

/-- The number of byte strings after the type in the data of a key. -/
def fieldCount : KeyType → Nat
  | ed25519 => 1
  | rsa => 2
  | dss => 4
  | ecdsaP256 => 2
  | ecdsaP384 => 2
  | ecdsaP521 => 2
  | hardwareEd25519 => 2
  | hardwareEcdsaP256 => 3

def ofName? (word : String) : Option KeyType := all.find? (·.name = word)

theorem ofName?_name (t : KeyType) : ofName? t.name = some t := by cases t <;> decide

end KeyType

/-- Why a line is no public key. -/
inductive KeyError where
  | incomplete
  | unsupportedType (word : String)
  | malformedData (fault : Text.Base64.Fault)
  | truncated
  | typeMismatch (declared encoded : String)
  | trailingBytes
  deriving DecidableEq, Repr

def KeyError.message : KeyError → String
  | incomplete => "missing key type or key data"
  | unsupportedType word => "unsupported key type: " ++ word
  | malformedData fault => "invalid base64: " ++ fault.message
  | truncated => "key data is truncated"
  | typeMismatch declared encoded =>
    "declared type " ++ declared ++ " does not match encoded type " ++ encoded
  | trailingBytes => "trailing bytes after key data"

namespace SshKey

/-! ### Key data -/

/-- The four bytes of a length, most significant first. -/
def lengthBytes (n : Nat) : List UInt8 :=
  [UInt8.ofNat (n / 16777216), UInt8.ofNat (n / 65536), UInt8.ofNat (n / 256), UInt8.ofNat n]

/-- A byte string after its length. -/
def wireString (bytes : List UInt8) : List UInt8 := lengthBytes bytes.length ++ bytes

/-- The byte string at the front of some data and what follows it. -/
def readString? : List UInt8 → Option (List UInt8 × List UInt8)
  | a :: b :: c :: d :: rest =>
    let n := ((a.toNat * 256 + b.toNat) * 256 + c.toNat) * 256 + d.toNat
    if rest.length < n then none else some (rest.take n, rest.drop n)
  | _ => none

def skipStrings? : Nat → List UInt8 → Option (List UInt8)
  | 0, data => some data
  | count + 1, data => (readString? data).bind fun r => skipStrings? count r.2

/-- Whether data holds a key of the declared type and nothing else. -/
def checkData (declared : KeyType) (data : List UInt8) : Except KeyError Unit :=
  match readString? data with
  | none => .error .truncated
  | some (encoded, fields) =>
    if encoded ≠ Text.encode declared.name then
      .error (.typeMismatch declared.name (Text.decodeLossy encoded))
    else match skipStrings? declared.fieldCount fields with
      | none => .error .truncated
      | some [] => .ok ()
      | some (_ :: _) => .error .trailingBytes

/-! ### Lines -/

/-- The declared type of a line's words and the words after it. A first word that names no type is
a list of options. -/
def declaredType : List String → Except KeyError (KeyType × List String)
  | [] => .error .incomplete
  | first :: rest =>
    match KeyType.ofName? first with
    | some t => .ok (t, rest)
    | none =>
      match rest with
      | [] => .error .incomplete
      | second :: rest =>
        match KeyType.ofName? second with
        | some t => .ok (t, rest)
        | none => .error (.unsupportedType second)

def checkWords (words : List String) : Except KeyError Unit := do
  let (declared, rest) ← declaredType words
  match rest with
  | [] => .error .incomplete
  | data :: _ => do
    let bytes ← (Text.Base64.decode (Text.encode data)).mapError .malformedData
    checkData declared bytes

def check (line : String) : Except KeyError Unit :=
  checkWords ((Text.words line.toList).map String.ofList)

end SshKey

end MachinePool
