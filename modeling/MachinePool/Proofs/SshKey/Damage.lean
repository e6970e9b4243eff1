import MachinePool.Proofs.SshKey
import MachinePool.Proofs.Text.Utf8

/-!
What is said about damaged key data.

Reading is not disturbed by what follows: bytes after some data are still there
after what is read of it (`readString?_append`, `skipStrings?_append`). So data that
lost its end cannot be read through, or the whole would have bytes left, and data
that something follows is read through and has bytes left. Which type the data
names is looked at first, so data of another type is told by its name however it
goes on.

* `damage_is_named`: cut data is truncated, extended data has trailing bytes, data of
  another type mismatches, no key is the beginning of another one of its type, and
  a text that is no base64 is refused for what it has in it.
-/

namespace MachinePool.SshKey

variable {t : KeyType} {data extra key bytes rest : List UInt8} {line : String} {n : Nat}

/-! ### Reading what something follows -/

/-- What follows data stays behind what is read of it. -/
theorem readString?_append (read : readString? data = some (bytes, rest)) (extra : List UInt8) :
    readString? (data ++ extra) = some (bytes, rest ++ extra) := by
  obtain ⟨short, rfl⟩ := readString?_eq_some_iff.mp read
  rw [List.append_assoc]
  exact readString?_wireString short _

/-- What follows data stays behind what is skipped of it. -/
theorem skipStrings?_append (skipped : skipStrings? n data = some rest) (extra : List UInt8) :
    skipStrings? n (data ++ extra) = some (rest ++ extra) := by
  obtain ⟨fields, count, short, rfl⟩ := skipStrings?_eq_some_iff.mp skipped
  rw [List.append_assoc]
  exact skipStrings?_eq_some_iff.mpr ⟨fields, count, short, rfl⟩

/-! ### Damaged key data -/

/-- The data of a key is the name of its type and fields that end with it. -/
theorem exists_read_of_checkData (accepted : checkData t key = .ok ()) :
    ∃ fields, readString? key = some (Text.encode t.name, fields) ∧
      skipStrings? t.fieldCount fields = some [] := by
  obtain ⟨fields, count, short, rfl⟩ := checkData_eq_ok_iff.mp accepted
  refine ⟨fields.flatMap wireString, ?_, skipStrings?_eq_some_iff.mpr ⟨fields, count, short, ?_⟩⟩
  · rw [blob, List.flatMap_cons]
    exact readString?_wireString t.length_encode_name _
  · rw [List.append_nil]

/-- Key data that lost its end is truncated. -/
theorem checkData_of_cut (accepted : checkData t (data ++ extra) = .ok ()) (cut : extra ≠ []) :
    checkData t data = .error .truncated := by
  obtain ⟨fields, named, ends⟩ := exists_read_of_checkData accepted
  rw [checkData]
  cases read : readString? data with
  | none => rfl
  | some found =>
      obtain ⟨encoded, front⟩ := found
      rw [readString?_append read] at named
      cases named
      cases skipped : skipStrings? t.fieldCount front with
      | none => simp [skipped]
      | some left =>
          -- Then the whole would have the bytes left that were cut off.
          rw [skipStrings?_append skipped, Option.some.injEq, List.append_eq_nil_iff] at ends
          exact absurd ends.2 cut

/-- Key data with more after it has trailing bytes. -/
theorem checkData_of_extended (accepted : checkData t key = .ok ()) (extended : extra ≠ []) :
    checkData t (key ++ extra) = .error .trailingBytes := by
  obtain ⟨fields, named, ends⟩ := exists_read_of_checkData accepted
  obtain ⟨byte, others, rfl⟩ := List.exists_cons_of_ne_nil extended
  rw [checkData, readString?_append named]
  simp [skipStrings?_append ends]

/-- Data that begins with another name mismatches, whatever follows. -/
theorem checkData_of_otherType (short : bytes.length < UInt32.size)
    (other : bytes ≠ Text.encode t.name) (rest : List UInt8) :
    checkData t (wireString bytes ++ rest) =
      .error (.typeMismatch t.name (Text.decodeLossy bytes)) := by
  rw [checkData, readString?_wireString short]
  simp [other]

/-! ### Lines -/

/-- The words of a line that declares a type with some data: the name of the type, the text of the
data and any others, after a word that names no type or none. -/
inductive DeclaresData (t : KeyType) (data : List UInt8) : List String → Prop where
  | plain (comment : List String) :
      DeclaresData t data (t.name :: String.ofList (Text.Base64.encode data) :: comment)
  | withOptions {options : String} (comment : List String) : (∀ t' : KeyType, options ≠ t'.name) →
      DeclaresData t data (options :: t.name :: String.ofList (Text.Base64.encode data) :: comment)

def Declares (line : String) (t : KeyType) (data : List UInt8) : Prop :=
  ∃ words, Text.IsWords line.toList words ∧ DeclaresData t data (words.map String.ofList)

/-- Some line that declares a type with some data is accepted. -/
def Accepted (t : KeyType) (data : List UInt8) : Prop :=
  ∃ line, Declares line t data ∧ check line = .ok ()

def plainLine (t : KeyType) (data : List UInt8) : String :=
  t.name ++ " " ++ String.ofList (Text.Base64.encode data)

theorem declares_plainLine (nonempty : data ≠ []) : Declares (plainLine t data) t data := by
  have text : Text.Base64.encode data ≠ [] := mt Text.Base64.encode_eq_nil_iff.mp nonempty
  have solid : ∀ c ∈ Text.Base64.encode data, Text.isBlank c = false :=
    Text.Base64.forall_mem_encode (by decide) (by decide) data
  refine ⟨[t.name.toList, Text.Base64.encode data], ?_, ?_⟩
  · have isWords := (Text.IsWords.single text solid).cons_space t.name_ne_nil t.name_solid
    simpa [plainLine] using isWords
  · have declares : DeclaresData t data _ := .plain []
    simpa using declares

theorem DeclaresData.text_mem {words : List String} (declares : DeclaresData t data words) :
    String.ofList (Text.Base64.encode data) ∈ words := by
  cases declares <;> simp

/-- The text of no data is no word. -/
theorem Declares.ne_nil (declares : Declares line t data) : data ≠ [] := by
  rintro rfl
  obtain ⟨words, isWords, declares⟩ := declares
  obtain ⟨word, mem, text⟩ := List.mem_map.mp declares.text_mem
  exact isWords.ne_nil word mem (String.ofList_inj.mp text)

/-- Of a declared line only the data is left to check. -/
theorem Declares.check_eq (declares : Declares line t data) : check line = checkData t data := by
  obtain ⟨words, isWords, declares⟩ := declares
  rw [check, Text.isWords_iff.mp isWords]
  have decoded : Text.Base64.decode (Text.encode (String.ofList (Text.Base64.encode data))) =
      .ok data := Text.base64_decode_encode_eq_ok_iff.mpr rfl
  have type : ∃ comment, declaredType (words.map String.ofList) =
      .ok (t, String.ofList (Text.Base64.encode data) :: comment) := by
    generalize words.map String.ofList = words at declares
    cases declares with
    | plain comment => exact ⟨comment, declaredType_eq_ok_iff.mpr (.inl rfl)⟩
    | withOptions comment noType =>
        exact ⟨comment, declaredType_eq_ok_iff.mpr (.inr ⟨_, noType, rfl⟩)⟩
  obtain ⟨comment, type⟩ := type
  rw [checkWords, type]
  simp [decoded, bind, Except.bind, Except.mapError]

/-- Data is accepted in some line exactly when it is the data of a key. -/
theorem accepted_iff : Accepted t key ↔ checkData t key = .ok () := by
  constructor
  · rintro ⟨line, declares, ok⟩
    rwa [declares.check_eq] at ok
  · intro ok
    have nonempty : key ≠ [] := by
      rintro rfl
      cases ok
    have declares := declares_plainLine (t := t) nonempty
    exact ⟨_, declares, declares.check_eq.trans ok⟩

/-! ### Data that is no base64 -/

section Malformed

variable {fault : Text.Base64.Fault} {words : List String}

theorem declaredType_ne_malformedData : declaredType words ≠ .error (.malformedData fault) := by
  fun_cases declaredType words <;> simp_all

theorem checkData_ne_malformedData : checkData t data ≠ .error (.malformedData fault) := by
  fun_cases checkData t data <;> simp_all

/-- A word that is no text of data is refused for something that is found in it. -/
theorem tells_of_checkWords (refused : checkWords words = .error (.malformedData fault)) :
    ∃ word ∈ words, fault.Tells (Text.encode word) := by
  rcases bind_eq_error_iff.mp refused with undeclared | ⟨⟨t, others⟩, declared, refused⟩
  · exact absurd undeclared declaredType_ne_malformedData
  cases others with
  | nil => cases refused
  | cons word others =>
      rcases bind_eq_error_iff.mp refused with malformed | ⟨bytes, -, refused⟩
      · obtain ⟨_, decoded, same⟩ := mapError_eq_error_iff.mp malformed
        cases same
        refine ⟨word, ?_, Text.Base64.tells_of_decode decoded⟩
        rcases declaredType_eq_ok_iff.mp declared with rfl | ⟨options, -, rfl⟩ <;> simp
      · exact absurd refused checkData_ne_malformedData

end Malformed

/-! ### Naming the damage -/

/-- The damage of key data is named. Any data but none can be declared. Of a key that is accepted
for a type, every line that declares the type with a beginning of it is truncated, and every line
that declares the type with more after it has trailing bytes. Data that begins with another name
than the declared one mismatches, whatever follows the name, and both names are told. So no accepted
key is the beginning of another one of its type. And a line that is refused for a text which is no
base64 has a word with just the fault that is told. -/
theorem damage_is_named :
    (∀ t data, (∃ line, Declares line t data) ↔ data ≠ []) ∧
    (∀ t key, Accepted t key → ∀ line data, Declares line t data → data ≠ key →
      (data <+: key → check line = .error .truncated) ∧
      (key <+: data → check line = .error .trailingBytes)) ∧
    (∀ t line encoded rest, encoded.length < UInt32.size → encoded ≠ Text.encode t.name →
      Declares line t (wireString encoded ++ rest) →
        check line = .error (.typeMismatch t.name (Text.decodeLossy encoded)) ∧
        ∀ name, encoded = Text.encode name → check line = .error (.typeMismatch t.name name)) ∧
    (∀ t key key', Accepted t key → Accepted t key' → key <+: key' → key = key') ∧
    ∀ line fault, check line = .error (.malformedData fault) →
      ∃ word ∈ Text.words line.toList, fault.Tells (Text.encode (String.ofList word)) := by
  refine ⟨?declared, ?damage, ?otherType, ?prefixFree, ?malformed⟩
  case declared =>
    intro t data
    constructor
    · rintro ⟨line, declares⟩
      exact declares.ne_nil
    · intro nonempty
      exact ⟨_, declares_plainLine nonempty⟩
  case damage =>
    intro t key accepted line data declares other
    rw [accepted_iff] at accepted
    rw [declares.check_eq]
    constructor
    · rintro ⟨extra, rfl⟩
      exact checkData_of_cut accepted fun none => other (by rw [none, List.append_nil])
    · rintro ⟨extra, rfl⟩
      exact checkData_of_extended accepted fun none => other (by rw [none, List.append_nil])
  case otherType =>
    intro t line encoded rest short other declares
    have mismatch := checkData_of_otherType short other rest
    rw [← declares.check_eq] at mismatch
    refine ⟨mismatch, ?_⟩
    rintro name rfl
    rwa [Text.decodeLossy_encode] at mismatch
  case prefixFree =>
    rintro t key _ accepted accepted' ⟨extra, rfl⟩
    rw [accepted_iff] at accepted accepted'
    by_contra longer
    have extended : extra ≠ [] := by
      rintro rfl
      exact longer (List.append_nil key).symm
    rw [checkData_of_extended accepted extended] at accepted'
    cases accepted'
  case malformed =>
    intro line fault refused
    obtain ⟨_, mem, tells⟩ := tells_of_checkWords refused
    obtain ⟨word, among, rfl⟩ := List.mem_map.mp mem
    exact ⟨word, among, tells⟩

/-- A key that is cut within the length of its field, one with a byte after it, and a whole one that
is declared with another type. -/
theorem damaged_ed25519_key_is_refused :
    let key := blob .ed25519 [[7]]
    Accepted .ed25519 key ∧
    check (plainLine .ed25519 (key.take 17)) = .error .truncated ∧
    check (plainLine .ed25519 (key ++ [0])) = .error .trailingBytes ∧
    check (plainLine .rsa key) = .error (.typeMismatch "ssh-rsa" "ssh-ed25519") := by
  intro key
  obtain ⟨-, damage, otherType, -⟩ := damage_is_named
  have accepted : Accepted .ed25519 key := accepted_iff.mpr (by decide)
  have cut := damage _ _ accepted _ (key.take 17) (declares_plainLine (by decide)) (by decide)
  have extended := damage _ _ accepted _ (key ++ [0]) (declares_plainLine (by decide)) (by decide)
  have renamed := otherType .rsa (plainLine .rsa key) (Text.encode "ssh-ed25519") (wireString [7])
    (by decide) (by decide) (declares_plainLine (by decide))
  exact ⟨accepted, cut.1 (List.take_prefix _ _), extended.2 (List.prefix_append _ _),
    renamed.2 _ rfl⟩

end MachinePool.SshKey
