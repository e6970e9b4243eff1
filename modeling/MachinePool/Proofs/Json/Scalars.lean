import MachinePool.Json.Reader
import MachinePool.Json.Writer
import MachinePool.Proofs.Text.Digits

/-!
Strings and numbers are read back.

A character is written as itself or as an escape, and either is read as one unit
that denotes the character (`exists_unit_of_escape`), so the text of a string is
read as the string, a string that denotes no text included
(`exists_stringText_eq`). The text of a number is read as the number as long as
nothing follows that could continue it (`readNumber?_natural`, `readNumber?_decimal`).
-/

namespace MachinePool.Json

open Text

variable {cs rest : List Char} {c : Char} {n digits places : Nat}

/-! ### Strings -/

theorem readUnits?_letter {letter : Char} (escapes : escapedChar? letter = some c)
    (rest : List Char) : readUnits? ('\\' :: letter :: rest) =
      (readUnits? rest).map fun (units, rest) => (.plain c :: units, rest) := by
  have noUnit : letter ≠ 'u' := by
    rintro rfl
    cases escapes
  rw [readUnits?.eq_4, escapes]
  · cases readUnits? rest <;> rfl
  · intro _ _ _ _ _ same
    exact absurd same noUnit

theorem readUnits?_control (control : c < ' ') (rest : List Char) :
    readUnits? ('\\' :: 'u' :: fourHexDigits hexDigit c.toNat ++ rest) =
      (readUnits? rest).map fun (units, rest) => (.escaped c.toNat :: units, rest) := by
  have small : c.toNat < 65536 := Nat.lt_trans (show c.toNat < 32 from control) (by decide)
  have unit : readDigits? 16 (fourHexDigits hexDigit c.toNat) = some c.toNat :=
    (readDigits?_sixteen_iff rfl).mpr ⟨small, map_toLower_fourHexDigits c.toNat⟩
  simp only [fourHexDigits] at unit
  simp only [fourHexDigits, List.cons_append, List.nil_append, readUnits?, unit]
  cases readUnits? rest <;> rfl

theorem readUnits?_plain (quote : c ≠ '\x22') (backslash : c ≠ '\\') (control : ¬ c < ' ')
    (rest : List Char) : readUnits? (c :: rest) =
      (readUnits? rest).map fun (units, rest) => (.plain c :: units, rest) := by
  rw [readUnits?.eq_5, if_neg (by simp [control, backslash])]
  · intro same
    exact quote same
  · intro _ _ _ _ _ same
    exact absurd same backslash
  · intro _ _ same
    exact absurd same backslash

/-- What a character is written as is one unit of a string, which denotes the character. -/
theorem exists_unit_of_escape (c : Char) : ∃ unit : StringUnit,
    (∀ rest, readUnits? (escape c ++ rest) =
      (readUnits? rest).map fun (units, rest) => (unit :: units, rest)) ∧
    ∀ units, joinUnits? none (unit :: units) = (joinUnits? none units).map (c :: ·) := by
  unfold escape
  split_ifs with quote backslash back tab newline feed carriage control
  · exact ⟨.plain c, readUnits?_letter (by rw [quote]; rfl), fun _ => rfl⟩
  · exact ⟨.plain c, readUnits?_letter (by rw [backslash]; rfl), fun _ => rfl⟩
  · exact ⟨.plain c, readUnits?_letter (by rw [back]; rfl), fun _ => rfl⟩
  · exact ⟨.plain c, readUnits?_letter (by rw [tab]; rfl), fun _ => rfl⟩
  · exact ⟨.plain c, readUnits?_letter (by rw [newline]; rfl), fun _ => rfl⟩
  · exact ⟨.plain c, readUnits?_letter (by rw [feed]; rfl), fun _ => rfl⟩
  · exact ⟨.plain c, readUnits?_letter (by rw [carriage]; rfl), fun _ => rfl⟩
  · refine ⟨.escaped c.toNat, readUnits?_control control, fun units => ?_⟩
    have low : c.toNat < 32 := control
    have noHalf : isHighHalf c.toNat = false ∧ isLowHalf c.toNat = false := by
      simp [isHighHalf, isLowHalf]
      omega
    simp [joinUnits?, noHalf, Char.ofNat_toNat]
  · exact ⟨.plain c, readUnits?_plain quote backslash control, fun _ => rfl⟩

/-- An escaped string is read up to its closing quote. -/
theorem exists_units_of_escapes (cs rest : List Char) : ∃ units,
    readUnits? (cs.flatMap escape ++ '\x22' :: rest) = some (units, rest) ∧
    joinUnits? none units = some cs := by
  induction cs with
  | nil => exact ⟨[], rfl, rfl⟩
  | cons c cs ih =>
      obtain ⟨units, read, joined⟩ := ih
      obtain ⟨unit, first, denotes⟩ := exists_unit_of_escape c
      refine ⟨unit :: units, ?_, ?_⟩
      · rw [List.flatMap_cons, List.append_assoc, first, read]
        rfl
      · rw [denotes, joined]
        rfl

/-- A string is a quote and what is read back as the string. -/
theorem exists_stringText_eq (text : Option String) : ∃ body, stringText text = '\x22' :: body ∧
    ∀ rest, readString? (body ++ rest) = some (text, rest) := by
  cases text with
  | none => exact ⟨_, rfl, fun _ => rfl⟩
  | some s =>
      refine ⟨s.toList.flatMap escape ++ ['\x22'], rfl, fun rest => ?_⟩
      obtain ⟨units, read, joined⟩ := exists_units_of_escapes s.toList rest
      rw [readString?, List.append_assoc, List.singleton_append, read]
      simp [joined]

/-! ### Numbers -/

/-- A text that does not go on with a number. -/
def EndsNumber (rest : List Char) : Prop :=
  ∀ c ∈ rest.head?, c.isDigit = false ∧ c ≠ '.' ∧ c ≠ 'e' ∧ c ≠ 'E'

/-- Digits are read up to the first character that is none. -/
theorem spanDigits_append {ds : List Char} (allDigits : ∀ c ∈ ds, c.isDigit = true)
    (ends : ∀ c ∈ rest.head?, c.isDigit = false) : spanDigits (ds ++ rest) = (ds, rest) := by
  obtain ⟨front, back⟩ := span_append allDigits ends
  rw [spanDigits, front, back]

theorem spanDigits_decimalDigits (n : Nat) (ends : ∀ c ∈ rest.head?, c.isDigit = false) :
    spanDigits (decimalDigits n ++ rest) = (decimalDigits n, rest) :=
  spanDigits_append (fun _ => isDigit_of_mem_decimalDigits) ends

theorem exists_decimalDigits_eq_cons (n : Nat) :
    ∃ c cs, decimalDigits n = c :: cs ∧ c.isDigit = true := by
  obtain ⟨c, cs, eq⟩ := List.exists_cons_of_ne_nil (decimalDigits_ne_nil n)
  exact ⟨c, cs, eq, isDigit_of_mem_decimalDigits (eq ▸ List.mem_cons_self)⟩

theorem readWhole?_decimalDigits (n : Nat) (ends : ∀ c ∈ rest.head?, c.isDigit = false) :
    readWhole? (decimalDigits n ++ rest) = some (decimalDigits n, rest) := by
  rcases Nat.eq_zero_or_pos n with rfl | positive
  · rfl
  · obtain ⟨c, cs, eq, -⟩ := exists_decimalDigits_eq_cons n
    have noZero : c ≠ '0' := by
      have head := head?_decimalDigits_ne positive
      rw [eq] at head
      simpa using head
    have span := spanDigits_decimalDigits n ends
    rw [eq, List.cons_append] at span ⊢
    rw [readWhole?.eq_2, span]
    intro _ same
    exact noZero (List.cons.inj same).1

theorem readSignedDigits?_decimalDigits (n : Nat) (ends : ∀ c ∈ rest.head?, c.isDigit = false) :
    readSignedDigits? (decimalDigits n ++ rest) = some ((n : Int), rest) ∧
    readSignedDigits? ('-' :: decimalDigits n ++ rest) = some (-(n : Int), rest) := by
  have span := spanDigits_decimalDigits n ends
  have value := readDigits?_decimalDigits n
  constructor
  · obtain ⟨c, cs, eq, digit⟩ := exists_decimalDigits_eq_cons n
    unfold readSignedDigits?
    rw [eq, List.cons_append] at span ⊢
    rw [eq] at value
    split
    next negative text signed =>
      split at signed
      · next same => cases same; cases digit
      · next same => cases same; cases digit
      · cases signed
        simp [span, value]
  · simp [readSignedDigits?, span, value]

theorem isDigit_of_mem_fractionDigits (mem : c ∈ fractionDigits digits places) :
    c.isDigit = true := by
  unfold fractionDigits at mem
  split at mem
  · cases mem
  · rcases List.mem_append.mp mem with zero | digit
    · rw [List.eq_of_mem_replicate zero]
      rfl
    · exact isDigit_of_mem_decimalDigits digit

/-- A numeral with as many zeros before it as fill the places. -/
theorem padded_decimalDigits (small : n < Nat.pow 10 places) (some : 0 < places) :
    let padded := List.replicate (places - (decimalDigits n).length) '0' ++ decimalDigits n
    padded.length = places ∧
      ∀ acc, Nat.ofDigitChars 10 padded acc = acc * Nat.pow 10 places + n := by
  intro padded
  have short : (decimalDigits n).length ≤ places :=
    (Nat.length_toDigits_le_iff (by decide) some).mpr small
  have length : padded.length = places := by
    simp [padded]
    omega
  refine ⟨length, fun acc => ?_⟩
  have value : Nat.ofDigitChars 10 padded 0 = n := by
    rw [Nat.ofDigitChars_append, Nat.ofDigitChars_replicate_zero, Nat.mul_zero]
    exact Nat.ofDigitChars_ten_toDigits
  rw [Nat.ofDigitChars_eq_ofDigitChars_zero, length, value, Nat.mul_comm]
  rfl

/-- The digits after the point are as many as the places and give the rest of the division. -/
theorem fractionDigits_spec (digits places : Nat) :
    (fractionDigits digits places).length = places ∧
      ∀ acc, Nat.ofDigitChars 10 (fractionDigits digits places) acc =
        acc * Nat.pow 10 places + digits % Nat.pow 10 places := by
  unfold fractionDigits
  split
  · next none =>
      subst none
      simp [Nat.mod_one, Nat.ofDigitChars]
  · next some =>
      have small : digits % Nat.pow 10 places < Nat.pow 10 places :=
        Nat.mod_lt _ (Nat.pow_pos (by decide))
      exact padded_decimalDigits small (Nat.pos_of_ne_zero some)

/-- The digits before and after the point together are the digits of the number. -/
theorem readDigits?_wholeDigits_append (digits places : Nat) :
    readDigits? 10 (wholeDigits digits places ++ fractionDigits digits places) = some digits := by
  have nonempty : wholeDigits digits places ++ fractionDigits digits places ≠ [] := by
    simp [wholeDigits, decimalDigits_ne_nil]
  have allDigits : ∀ c ∈ wholeDigits digits places ++ fractionDigits digits places,
      c.isDigit = true := by
    intro c mem
    rcases List.mem_append.mp mem with whole | fraction
    · exact isDigit_of_mem_decimalDigits whole
    · exact isDigit_of_mem_fractionDigits fraction
  have whole : Nat.ofDigitChars 10 (wholeDigits digits places) 0 = digits / Nat.pow 10 places :=
    Nat.ofDigitChars_ten_toDigits
  rw [readDigits?_of_isDigit nonempty allDigits, Nat.ofDigitChars_append, whole,
    (fractionDigits_spec digits places).2, Nat.div_add_mod']

theorem readFraction?_point (rest : List Char) (allDigits : ∀ c ∈ cs, c.isDigit = true)
    (nonempty : cs ≠ []) (ends : ∀ c ∈ rest.head?, c.isDigit = false) :
    readFraction? ('.' :: cs ++ rest) = some (cs, rest) := by
  have span := spanDigits_append allDigits ends
  obtain ⟨c, cs, rfl⟩ := List.exists_cons_of_ne_nil nonempty
  simp only [List.cons_append] at span ⊢
  simp [readFraction?, span]

theorem readUnsigned?_natural (n : Nat) (ends : EndsNumber rest) :
    readUnsigned? false (decimalDigits n ++ rest) = some (.natural n, rest) := by
  have noPoint : readFraction? rest = some ([], rest) := by
    rw [readFraction?.eq_2]
    rintro _ rfl
    exact (ends '.' rfl).2.1 rfl
  have noExponent : readExponent? rest = some (none, rest) := by
    rw [readExponent?.eq_3]
    · rintro _ rfl
      exact (ends 'e' rfl).2.2.1 rfl
    · rintro _ rfl
      exact (ends 'E' rfl).2.2.2 rfl
  rw [readUnsigned?, readWhole?_decimalDigits n fun c mem => (ends c mem).1]
  simp [noPoint, noExponent, readDigits?_decimalDigits]

def exponentText : Int → List Char
  | .ofNat e => 'e' :: decimalDigits e
  | .negSucc e => 'e' :: '-' :: decimalDigits (e + 1)

def placesText (digits places : Nat) : List Char :=
  if places = 0 then [] else '.' :: fractionDigits digits places

theorem decimalText_eq (negative : Bool) (digits places : Nat) (exponent : Int) :
    decimalText negative digits places exponent = (if negative then ['-'] else []) ++
      wholeDigits digits places ++ placesText digits places ++ exponentText exponent := by
  cases exponent <;> rfl

theorem exists_exponentText_eq_cons (exponent : Int) :
    ∃ more, exponentText exponent = 'e' :: more := by
  cases exponent <;> exact ⟨_, rfl⟩

theorem readExponent?_exponentText (exponent : Int) (ends : EndsNumber rest) :
    readExponent? (exponentText exponent ++ rest) = some (some exponent, rest) := by
  have noDigit : ∀ c ∈ rest.head?, c.isDigit = false := fun c mem => (ends c mem).1
  cases exponent with
  | ofNat e =>
      have read := (readSignedDigits?_decimalDigits e noDigit).1
      simp [exponentText, readExponent?, read]
  | negSucc e =>
      have read := (readSignedDigits?_decimalDigits (e + 1) noDigit).2
      rw [List.cons_append] at read
      simp only [exponentText, List.cons_append, readExponent?, read, Option.map_some]
      rfl

theorem readFraction?_placesText (digits places : Nat) (more : List Char) :
    readFraction? (placesText digits places ++ 'e' :: more) =
      some (fractionDigits digits places, 'e' :: more) := by
  unfold placesText
  split
  · next none =>
      subst none
      rfl
  · next some =>
      have nonempty : fractionDigits digits places ≠ [] := by
        apply List.ne_nil_of_length_pos
        rw [(fractionDigits_spec digits places).1]
        exact Nat.pos_of_ne_zero some
      have noDigit : ∀ c ∈ ('e' :: more).head?, c.isDigit = false := by
        rintro _ ⟨⟩
        rfl
      exact readFraction?_point _ (fun _ => isDigit_of_mem_fractionDigits) nonempty noDigit

theorem readUnsigned?_decimal (negative : Bool) (digits places : Nat) (exponent : Int)
    (ends : EndsNumber rest) :
    readUnsigned? negative (wholeDigits digits places ++
        (placesText digits places ++ (exponentText exponent ++ rest))) =
      some (.decimal negative digits places exponent, rest) := by
  have power := readExponent?_exponentText exponent ends
  obtain ⟨more, starts⟩ := exists_exponentText_eq_cons exponent
  rw [starts, List.cons_append] at power ⊢
  have fraction := readFraction?_placesText digits places (more ++ rest)
  have whole : readWhole? (wholeDigits digits places ++
      (placesText digits places ++ 'e' :: (more ++ rest))) =
        some (wholeDigits digits places, placesText digits places ++ 'e' :: (more ++ rest)) := by
    apply readWhole?_decimalDigits
    unfold placesText
    split <;> (rintro _ ⟨⟩; rfl)
  rw [readUnsigned?, whole]
  simp [fraction, power, readDigits?_wholeDigits_append, (fractionDigits_spec digits places).1]

theorem readNumber?_of_isDigit (digit : c.isDigit = true) (cs : List Char) :
    readNumber? (c :: cs) = readUnsigned? false (c :: cs) := by
  rw [readNumber?.eq_2]
  rintro _ same
  rw [(List.cons.inj same).1] at digit
  cases digit

/-- The numeral of a natural number is read as the number. -/
theorem readNumber?_natural (n : Nat) (ends : EndsNumber rest) :
    readNumber? (decimalDigits n ++ rest) = some (.natural n, rest) := by
  have read := readUnsigned?_natural n ends
  obtain ⟨c, cs, eq, digit⟩ := exists_decimalDigits_eq_cons n
  rw [eq, List.cons_append] at read ⊢
  rw [readNumber?_of_isDigit digit, read]

/-- The text of any other number is read as the number. -/
theorem readNumber?_decimal (negative : Bool) (digits places : Nat) (exponent : Int)
    (ends : EndsNumber rest) :
    readNumber? (decimalText negative digits places exponent ++ rest) =
      some (.decimal negative digits places exponent, rest) := by
  have read := readUnsigned?_decimal negative digits places exponent ends
  simp only [decimalText_eq, List.append_assoc]
  cases negative with
  | true => exact read
  | false =>
      obtain ⟨c, cs, eq, digit⟩ := exists_decimalDigits_eq_cons (digits / Nat.pow 10 places)
      have whole : wholeDigits digits places = c :: cs := eq
      rw [whole, List.cons_append] at read ⊢
      exact (readNumber?_of_isDigit digit _).trans read

end MachinePool.Json
