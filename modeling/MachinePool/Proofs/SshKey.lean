import MachinePool.Proofs.Checks
import MachinePool.Proofs.Text.Blank
import MachinePool.Proofs.Text.Utf8
import MachinePool.SshKey

/-!
Which lines are public keys.

A byte string is found again at the front of whatever follows it, and nothing
else is found there (`readString?_eq_some_iff`), so the data of a key has one row
of fields. A line holds a key of a type with some fields (`IsKey`) when its words
are the name of the type and the text of such data, after one word at most that
names no type and before any others.

* `check_accepts_exactly_keys`: exactly these lines are accepted, and the type and
  the fields are the only ones that the line holds.
-/

namespace MachinePool

/-! ### Types -/

namespace KeyType

variable {t t' : KeyType}

theorem ofName?_eq_some_iff {word : String} : ofName? word = some t ↔ word = t.name := by
  constructor
  · intro found
    exact (of_decide_eq_true (List.find?_some found :)).symm
  · rintro rfl
    exact ofName?_name t

theorem name_injective (same : t.name = t'.name) : t = t' := by
  have found := ofName?_name t
  rw [same, ofName?_name] at found
  exact (Option.some.inj found).symm

theorem name_solid (t : KeyType) : ∀ c ∈ t.name.toList, Text.isBlank c = false := by
  have noBlank : t.name.toList.any Text.isBlank = false := by cases t <;> decide
  simpa using noBlank

theorem name_ne_nil (t : KeyType) : t.name.toList ≠ [] := by cases t <;> decide

theorem length_encode_name (t : KeyType) : (Text.encode t.name).length < UInt32.size := by
  cases t <;> decide

end KeyType

namespace SshKey

variable {t t' : KeyType} {bytes rest data : List UInt8} {fields fields' : List (List UInt8)}
variable {n : Nat} {line : String}

/-! ### Byte strings after their lengths -/

/-- Four bytes are the bytes of the length that is read from them. -/
theorem lengthBytes_value (a b c d : UInt8) :
    lengthBytes (((a.toNat * 256 + b.toNat) * 256 + c.toNat) * 256 + d.toNat) = [a, b, c, d] := by
  have boundA := a.toNat_lt
  have boundB := b.toNat_lt
  have boundC := c.toNat_lt
  have boundD := d.toNat_lt
  simp only [lengthBytes, List.cons.injEq, and_true, ← UInt8.toNat_inj, UInt8.toNat_ofNat']
  omega

/-- A byte string is found again at the front of whatever follows it. -/
theorem readString?_wireString (short : bytes.length < UInt32.size) (rest : List UInt8) :
    readString? (wireString bytes ++ rest) = some (bytes, rest) := by
  have value : (((UInt8.ofNat (bytes.length / 16777216)).toNat * 256 +
      (UInt8.ofNat (bytes.length / 65536)).toNat) * 256 +
      (UInt8.ofNat (bytes.length / 256)).toNat) * 256 + (UInt8.ofNat bytes.length).toNat =
        bytes.length := by
    simp only [UInt8.toNat_ofNat']
    change bytes.length < 4294967296 at short
    omega
  simp only [wireString, lengthBytes, List.cons_append, List.nil_append, readString?, value]
  simp

/-- What is read is a byte string whose length fits into four bytes, and what follows it. -/
theorem readString?_eq_some_iff : readString? data = some (bytes, rest) ↔
    bytes.length < UInt32.size ∧ data = wireString bytes ++ rest := by
  constructor
  · intro found
    match data with
    | [] | [_] | [_, _] | [_, _, _] => cases found
    | a :: b :: c :: d :: tail =>
        let n := ((a.toNat * 256 + b.toNat) * 256 + c.toNat) * 256 + d.toNat
        have bound : n < 4294967296 := by
          have boundA := a.toNat_lt
          have boundB := b.toNat_lt
          have boundC := c.toNat_lt
          have boundD := d.toNat_lt
          omega
        have enough : ¬ tail.length < n := by
          intro few
          simp [readString?, n, few] at found
        simp only [readString?] at found
        rw [if_neg enough] at found
        cases found
        have length : (tail.take n).length = n := by
          rw [List.length_take]
          omega
        refine ⟨by rw [length]; exact bound, ?_⟩
        rw [wireString, length, lengthBytes_value]
        simp
  · rintro ⟨short, rfl⟩
    exact readString?_wireString short rest

/-- What is skipped is a row of as many byte strings. -/
theorem skipStrings?_eq_some_iff : skipStrings? n data = some rest ↔
    ∃ fields : List (List UInt8), fields.length = n ∧
      (∀ field ∈ fields, field.length < UInt32.size) ∧
      data = fields.flatMap wireString ++ rest := by
  induction n generalizing data with
  | zero =>
      simp only [skipStrings?, Option.some.injEq, List.length_eq_zero_iff]
      constructor
      · rintro rfl
        exact ⟨[], rfl, nofun, rfl⟩
      · rintro ⟨_, rfl, -, rfl⟩
        rfl
  | succ n ih =>
      simp only [skipStrings?, Option.bind_eq_some_iff, Prod.exists, readString?_eq_some_iff, ih]
      constructor
      · rintro ⟨field, tail, ⟨short, rfl⟩, fields, rfl, others, rfl⟩
        exact ⟨field :: fields, rfl, List.forall_mem_cons.mpr ⟨short, others⟩, by simp⟩
      · rintro ⟨fields, count, short, rfl⟩
        obtain ⟨field, fields, rfl⟩ := List.exists_cons_of_length_eq_add_one count
        obtain ⟨first, others⟩ := List.forall_mem_cons.mp short
        exact ⟨field, fields.flatMap wireString ++ rest, ⟨first, by simp⟩, fields,
          Nat.succ.inj count, others, rfl⟩

/-- Rows of as many byte strings are the same when their bytes are. -/
theorem flatMap_wireString_injective (short : ∀ field ∈ fields, field.length < UInt32.size)
    (short' : ∀ field ∈ fields', field.length < UInt32.size)
    (count : fields.length = fields'.length)
    (same : fields.flatMap wireString = fields'.flatMap wireString) : fields = fields' := by
  induction fields generalizing fields' with
  | nil => exact (List.length_eq_zero_iff.mp count.symm).symm
  | cons field fields ih =>
      obtain ⟨field', fields', rfl⟩ := List.exists_cons_of_length_eq_add_one count.symm
      obtain ⟨first, others⟩ := List.forall_mem_cons.mp short
      obtain ⟨first', others'⟩ := List.forall_mem_cons.mp short'
      simp only [List.flatMap_cons] at same
      have found := readString?_wireString first (fields.flatMap wireString)
      rw [same, readString?_wireString first'] at found
      obtain ⟨rfl, rest⟩ := Prod.mk.inj (Option.some.inj found)
      rw [ih others others' (Nat.succ.inj count) rest.symm]

/-! ### Key data -/

/-- The data of a key: the name of its type and its fields. -/
def blob (t : KeyType) (fields : List (List UInt8)) : List UInt8 :=
  (Text.encode t.name :: fields).flatMap wireString

/-- Data is a key of a type when it is the type and as many fields as the type has. -/
theorem checkData_eq_ok_iff : checkData t data = .ok () ↔
    ∃ fields : List (List UInt8), fields.length = t.fieldCount ∧
      (∀ field ∈ fields, field.length < UInt32.size) ∧ data = blob t fields := by
  constructor
  · intro ok
    unfold checkData at ok
    split at ok
    · cases ok
    · next encoded rest read =>
        obtain ⟨-, rfl⟩ := readString?_eq_some_iff.mp read
        split_ifs at ok with other
        rw [not_not] at other
        subst other
        split at ok
        · cases ok
        · next skipped =>
            obtain ⟨fields, count, short, rfl⟩ := skipStrings?_eq_some_iff.mp skipped
            exact ⟨fields, count, short, by simp [blob]⟩
        · cases ok
  · rintro ⟨fields, count, short, rfl⟩
    have read : readString? (blob t fields) =
        some (Text.encode t.name, fields.flatMap wireString) := by
      rw [blob, List.flatMap_cons]
      exact readString?_wireString t.length_encode_name _
    have skipped : skipStrings? t.fieldCount (fields.flatMap wireString) = some [] :=
      skipStrings?_eq_some_iff.mpr ⟨fields, count, short, by simp⟩
    simp [checkData, read, skipped]

/-- The data of keys of one type differs if their fields do. -/
theorem blob_injective (short : ∀ field ∈ fields, field.length < UInt32.size)
    (short' : ∀ field ∈ fields', field.length < UInt32.size)
    (count : fields.length = fields'.length) (same : blob t fields = blob t fields') :
    fields = fields' := by
  rw [blob, blob, List.flatMap_cons, List.flatMap_cons, List.append_cancel_left_eq] at same
  exact flatMap_wireString_injective short short' count same

/-! ### Lines -/

def blobText (t : KeyType) (fields : List (List UInt8)) : String :=
  String.ofList (Text.Base64.encode (blob t fields))

/-- The words of a line that holds a key: the name of the type, the text of the data and any others,
after a word that names no type or none. -/
inductive DeclaresKey (t : KeyType) (fields : List (List UInt8)) : List String → Prop where
  | plain (comment : List String) : DeclaresKey t fields (t.name :: blobText t fields :: comment)
  | withOptions {options : String} (comment : List String) :
      (∀ t' : KeyType, options ≠ t'.name) →
      DeclaresKey t fields (options :: t.name :: blobText t fields :: comment)

structure IsKey (line : String) (t : KeyType) (fields : List (List UInt8)) : Prop where
  count : fields.length = t.fieldCount
  short : ∀ field ∈ fields, field.length < UInt32.size
  words : ∃ words, Text.IsWords line.toList words ∧
    DeclaresKey t fields (words.map String.ofList)

/-- A type is declared by the first word, or by the second one after options. -/
theorem declaredType_eq_ok_iff {words others : List String} :
    declaredType words = .ok (t, others) ↔ words = t.name :: others ∨
      ∃ options, (∀ t' : KeyType, options ≠ t'.name) ∧ words = options :: t.name :: others := by
  constructor
  · intro declared
    unfold declaredType at declared
    split at declared
    · cases declared
    · split at declared
      · next found =>
          cases declared
          rw [KeyType.ofName?_eq_some_iff.mp found]
          exact .inl rfl
      · next missing =>
          split at declared
          · cases declared
          · split at declared
            · next found =>
                cases declared
                rw [KeyType.ofName?_eq_some_iff.mp found]
                refine .inr ⟨_, fun t' same => ?_, rfl⟩
                rw [same, KeyType.ofName?_name] at missing
                cases missing
            · cases declared
  · rintro (rfl | ⟨options, noType, rfl⟩)
    · simp [declaredType, KeyType.ofName?_name]
    · have missing : KeyType.ofName? options = none := by
        rw [Option.eq_none_iff_forall_ne_some]
        intro t' found
        exact noType t' (KeyType.ofName?_eq_some_iff.mp found)
      simp [declaredType, missing, KeyType.ofName?_name]

/-- Words are accepted when they declare a key of a type with as many fields as it has. -/
theorem checkWords_eq_ok_iff {words : List String} :
    checkWords words = .ok () ↔
      ∃ t fields, (fields.length = t.fieldCount ∧
        ∀ field ∈ fields, field.length < UInt32.size) ∧ DeclaresKey t fields words := by
  unfold checkWords
  simp only [bind_eq_ok_iff, Prod.exists, declaredType_eq_ok_iff]
  constructor
  · rintro ⟨t, others, declared, ok⟩
    split at ok
    · cases ok
    · next data comment =>
        obtain ⟨bytes, decoded, ok⟩ := bind_eq_ok_iff.mp ok
        obtain ⟨fields, count, short, rfl⟩ := checkData_eq_ok_iff.mp ok
        obtain rfl : data = blobText t fields :=
          Text.base64_decode_encode_eq_ok_iff.mp (mapError_eq_ok_iff.mp decoded)
        refine ⟨t, fields, ⟨count, short⟩, ?_⟩
        rcases declared with rfl | ⟨options, noType, rfl⟩
        · exact .plain comment
        · exact .withOptions comment noType
  · rintro ⟨t, fields, ⟨count, short⟩, declares⟩
    have accepted : checkData t (blob t fields) = .ok () :=
      checkData_eq_ok_iff.mpr ⟨fields, count, short, rfl⟩
    have decoded : (Text.Base64.decode (Text.encode (blobText t fields))).mapError
        KeyError.malformedData = .ok (blob t fields) :=
      mapError_eq_ok_iff.mpr (Text.base64_decode_encode_eq_ok_iff.mpr rfl)
    have ok := bind_eq_ok_iff.mpr ⟨_, decoded, accepted⟩
    cases declares with
    | plain comment => exact ⟨t, blobText t fields :: comment, .inl rfl, ok⟩
    | withOptions comment noType =>
        exact ⟨t, blobText t fields :: comment, .inr ⟨_, noType, rfl⟩, ok⟩

/-- A line is accepted when it holds a key. -/
theorem check_eq_ok_iff : check line = .ok () ↔ ∃ t fields, IsKey line t fields := by
  rw [check, checkWords_eq_ok_iff]
  constructor
  · rintro ⟨t, fields, ⟨count, short⟩, declares⟩
    exact ⟨t, fields, count, short, _, Text.isWords_iff.mpr rfl, declares⟩
  · rintro ⟨t, fields, count, short, words, isWords, declares⟩
    rw [Text.isWords_iff.mp isWords]
    exact ⟨t, fields, ⟨count, short⟩, declares⟩

theorem declaresKey_iff {words : List String} :
    DeclaresKey t fields words ↔ (∃ comment, words = t.name :: blobText t fields :: comment) ∨
      ∃ options comment, (∀ t' : KeyType, options ≠ t'.name) ∧
        words = options :: t.name :: blobText t fields :: comment := by
  constructor
  · rintro (comment | ⟨comment, noType⟩)
    · exact .inl ⟨comment, rfl⟩
    · exact .inr ⟨_, comment, noType, rfl⟩
  · rintro (⟨comment, rfl⟩ | ⟨options, comment, noType, rfl⟩)
    · exact .plain comment
    · exact .withOptions comment noType

/-- Words declare one type and one text of data at most. -/
theorem DeclaresKey.unique {words : List String} (declares : DeclaresKey t fields words)
    (declares' : DeclaresKey t' fields' words) :
    t = t' ∧ blobText t fields = blobText t' fields' := by
  rcases declaresKey_iff.mp declares with ⟨comment, rfl⟩ | ⟨options, comment, noType, rfl⟩
  · rcases declaresKey_iff.mp declares' with ⟨comment', same⟩ | ⟨options', comment', noType', same⟩
    · obtain ⟨name, text, -⟩ := by simpa using same
      exact ⟨KeyType.name_injective name, text⟩
    · exact absurd (List.cons.inj same).1.symm (noType' t)
  · rcases declaresKey_iff.mp declares' with ⟨comment', same⟩ | ⟨options', comment', noType', same⟩
    · exact absurd (List.cons.inj same).1 (noType t')
    · obtain ⟨-, name, text, -⟩ := by simpa using same
      exact ⟨KeyType.name_injective name, text⟩

/-- A line holds at most one key. -/
theorem IsKey.unique (key : IsKey line t fields) (key' : IsKey line t' fields') :
    t = t' ∧ fields = fields' := by
  obtain ⟨words, isWords, declares⟩ := key.words
  obtain ⟨words', isWords', declares'⟩ := key'.words
  rw [Text.isWords_iff] at isWords isWords'
  subst isWords isWords'
  obtain ⟨rfl, text⟩ := declares.unique declares'
  exact ⟨rfl, blob_injective key.short key'.short (key.count.trans key'.count.symm)
    (Text.Base64.encode_injective (String.ofList_inj.mp text))⟩

/-! ### Composed lines -/

/-- The line of a key with one blank between its parts. -/
def compose (options : Option String) (t : KeyType) (fields : List (List UInt8))
    (comment : Option String) : String :=
  options.elim "" (· ++ " ") ++ t.name ++ " " ++ blobText t fields ++ comment.elim "" (" " ++ ·)

/-- A word that can stand for the options of a line: it has no blank and names no type. -/
structure IsOptions (word : String) : Prop where
  nonempty : word ≠ ""
  solid : ∀ c ∈ word.toList, Text.isBlank c = false
  noType : ∀ t : KeyType, word ≠ t.name

theorem blobText_solid (t : KeyType) (fields : List (List UInt8)) :
    ∀ c ∈ (blobText t fields).toList, Text.isBlank c = false := by
  rw [blobText, String.toList_ofList]
  exact Text.Base64.forall_mem_encode (by decide) (by decide) _

theorem blobText_ne_nil (t : KeyType) (fields : List (List UInt8)) :
    (blobText t fields).toList ≠ [] := by
  rw [blobText, String.toList_ofList, ne_eq, Text.Base64.encode_eq_nil_iff]
  simp [blob, wireString, lengthBytes]

/-- The words of a composed line are its options, the name of the type, the text of the data and the
words of its comment. -/
theorem exists_isWords_compose {options comment : Option String}
    (apart : ∀ word ∈ options, IsOptions word) :
    ∃ ws, Text.IsWords (compose options t fields comment).toList
      ((options.toList ++ [t.name, blobText t fields]).map String.toList ++ ws) := by
  have data : ∃ ws, Text.IsWords
      ((blobText t fields).toList ++ (comment.elim "" (" " ++ ·)).toList)
      ((blobText t fields).toList :: ws) := by
    cases comment with
    | none =>
        refine ⟨[], ?_⟩
        simpa using Text.IsWords.single (blobText_ne_nil t fields) (blobText_solid t fields)
    | some comment =>
        obtain ⟨ws, isWords⟩ := Text.exists_isWords comment.toList
        refine ⟨ws, ?_⟩
        simpa using isWords.cons_space (blobText_ne_nil t fields) (blobText_solid t fields)
  obtain ⟨ws, data⟩ := data
  have named := data.cons_space t.name_ne_nil t.name_solid
  refine ⟨ws, ?_⟩
  cases options with
  | none => simpa [compose] using named
  | some options =>
      obtain ⟨nonempty, solid, -⟩ := apart options rfl
      simpa [compose] using named.cons_space (by simpa using nonempty) solid

/-- A composed line holds the key it is composed of. -/
theorem isKey_compose (count : fields.length = t.fieldCount)
    (short : ∀ field ∈ fields, field.length < UInt32.size) {options comment : Option String}
    (apart : ∀ word ∈ options, IsOptions word) : IsKey (compose options t fields comment) t fields := by
  obtain ⟨ws, isWords⟩ := exists_isWords_compose apart
  refine ⟨count, short, _, isWords, ?_⟩
  cases options with
  | none =>
      have declares : DeclaresKey t fields _ := .plain (ws.map String.ofList)
      simpa using declares
  | some options =>
      have declares : DeclaresKey t fields _ :=
        .withOptions (ws.map String.ofList) (apart options rfl).noType
      simpa using declares

/-! ### Accepted lines -/

/-- A line is accepted exactly when it holds a key, and then it holds one only. Every key, composed to
a line with options that name no type and with any comment, is accepted. -/
theorem check_accepts_exactly_keys :
    (∀ line, check line = .ok () ↔ ∃ t fields, IsKey line t fields) ∧
    (∀ line t t' fields fields', IsKey line t fields → IsKey line t' fields' →
      t = t' ∧ fields = fields') ∧
    ∀ (t : KeyType) (fields : List (List UInt8)), fields.length = t.fieldCount →
      (∀ field ∈ fields, field.length < UInt32.size) → ∀ options comment : Option String,
      (∀ word ∈ options, IsOptions word) → check (compose options t fields comment) = .ok () := by
  refine ⟨fun line => check_eq_ok_iff, ?unique, ?composed⟩
  case unique =>
    intro line t t' fields fields' key key'
    exact key.unique key'
  case composed =>
    intro t fields count short options comment apart
    exact check_eq_ok_iff.mpr ⟨t, fields, isKey_compose count short apart⟩

/-- A key with an empty field is accepted after options and before a comment of several words, and no
other key stands in its line. -/
theorem key_with_options_accepted :
    let t : KeyType := .hardwareEcdsaP256
    let fields : List (List UInt8) := [[0, 255], [], [7]]
    let line := compose (some "no-pty") t fields (some "ops at  home")
    fields.length = t.fieldCount ∧ (∀ field ∈ fields, field.length < UInt32.size) ∧
    (∀ word ∈ some "no-pty", IsOptions word) ∧ check line = .ok () ∧
    ∀ t' fields', IsKey line t' fields' → t = t' ∧ fields = fields' := by
  intro t fields line
  have short : ∀ field ∈ fields, field.length < UInt32.size := by decide
  have apart : ∀ word ∈ some "no-pty", IsOptions word := by
    rintro _ ⟨⟩
    have noBlank : "no-pty".toList.any Text.isBlank = false := by decide
    exact ⟨by decide, by simpa only [List.any_eq_false, Bool.not_eq_true] using noBlank,
      fun t => by cases t <;> decide⟩
  obtain ⟨-, unique, composed⟩ := check_accepts_exactly_keys
  exact ⟨rfl, short, apart, composed t fields rfl short _ _ apart,
    fun t' fields' => unique line t t' fields fields' (isKey_compose rfl short apart)⟩

/-- Any blanks may stand between the words. -/
example : check "\u00a0ssh-ed25519\tAAAAC3NzaC1lZDI1NTE5AAAAAQc=" = .ok () := by decide +kernel

end SshKey

end MachinePool
