import MachinePool.Proofs.Json.Scalars

/-!
The text of a JSON value is read back (`parse?_render`), whatever the value.
Inside a longer text the reader stops where the text of a value ends, as long as
what follows does not go on with a number (`readValue?_compact`).
-/

namespace MachinePool.Json

open Text

variable {cs rest : List Char} {c : Char} {fuel : Nat}

/-! ### Starts -/

theorem skipSpace_cons (solid : isSpace c = false) (cs : List Char) :
    skipSpace (c :: cs) = c :: cs := by
  simp [skipSpace, solid]

def StartsNumber (c : Char) : Prop := c.isDigit = true ∨ c = '-'

theorem StartsNumber.solid (starts : StartsNumber c) : isSpace c = false ∧ c ≠ ']' := by
  rcases starts with digit | rfl
  · constructor
    · rw [isSpace]
      simp only [Bool.or_eq_false_iff, beq_eq_false_iff_ne]
      refine ⟨⟨⟨?_, ?_⟩, ?_⟩, ?_⟩ <;> (rintro rfl; cases digit)
    · rintro rfl
      cases digit
  · exact ⟨rfl, by decide⟩

theorem exists_decimalText_eq_cons (negative : Bool) (digits places : Nat) (exponent : Int) :
    ∃ c cs, decimalText negative digits places exponent = c :: cs ∧ StartsNumber c := by
  obtain ⟨c, cs, eq, digit⟩ := exists_decimalDigits_eq_cons (digits / Nat.pow 10 places)
  have whole : wholeDigits digits places = c :: cs := eq
  rw [decimalText_eq, whole]
  cases negative with
  | true => exact ⟨_, _, rfl, .inr rfl⟩
  | false => exact ⟨_, _, rfl, .inl digit⟩

/-- The text of a value starts neither with a blank nor like the end of an array. -/
theorem exists_compact_eq_cons (j : Json) :
    ∃ c cs, compact j = c :: cs ∧ isSpace c = false ∧ c ≠ ']' := by
  cases j with
  | null => exact ⟨_, _, rfl, rfl, by decide⟩
  | bool value => cases value <;> exact ⟨_, _, rfl, rfl, by decide⟩
  | natural n =>
      obtain ⟨c, cs, eq, digit⟩ := exists_decimalDigits_eq_cons n
      exact ⟨c, cs, eq, StartsNumber.solid (.inl digit)⟩
  | decimal negative digits places exponent =>
      obtain ⟨c, cs, eq, starts⟩ := exists_decimalText_eq_cons negative digits places exponent
      exact ⟨c, cs, eq, starts.solid⟩
  | string text =>
      obtain ⟨body, eq, -⟩ := exists_stringText_eq text
      exact ⟨_, body, eq, rfl, by decide⟩
  | array items => exact ⟨_, _, rfl, rfl, by decide⟩
  | object members => exact ⟨_, _, rfl, rfl, by decide⟩

theorem length_compact_pos (j : Json) : 0 < (compact j).length := by
  obtain ⟨c, cs, eq, -⟩ := exists_compact_eq_cons j
  simp [eq]

theorem readValue?_of_startsNumber (starts : StartsNumber c) (fuel : Nat) (cs : List Char) :
    readValue? (fuel + 1) (c :: cs) = readNumber? (c :: cs) := by
  rw [readValue?, skipSpace_cons starts.solid.1]
  rcases starts with digit | rfl
  · split
    case h_7 => rfl
    all_goals
      next same =>
        cases same
        cases digit
  · rfl

theorem readValue?_natural (n fuel : Nat) (ends : EndsNumber rest) :
    readValue? (fuel + 1) (decimalDigits n ++ rest) = some (.natural n, rest) := by
  have read := readNumber?_natural n ends
  obtain ⟨c, cs, eq, digit⟩ := exists_decimalDigits_eq_cons n
  rw [eq, List.cons_append] at read ⊢
  rw [readValue?_of_startsNumber (.inl digit), read]

theorem readValue?_decimal (negative : Bool) (digits places : Nat) (exponent : Int) (fuel : Nat)
    (ends : EndsNumber rest) :
    readValue? (fuel + 1) (decimalText negative digits places exponent ++ rest) =
      some (.decimal negative digits places exponent, rest) := by
  have read := readNumber?_decimal negative digits places exponent ends
  obtain ⟨c, cs, eq, starts⟩ := exists_decimalText_eq_cons negative digits places exponent
  rw [eq, List.cons_append] at read ⊢
  rw [readValue?_of_startsNumber starts, read]

/-- The text of a string is read as the string. -/
theorem readValue?_string (text : Option String) (fuel : Nat) (rest : List Char) :
    readValue? (fuel + 1) (stringText text ++ rest) = some (.string text, rest) := by
  obtain ⟨body, eq, read⟩ := exists_stringText_eq text
  have solid : skipSpace ('\x22' :: (body ++ rest)) = '\x22' :: (body ++ rest) :=
    skipSpace_cons rfl _
  simp [readValue?, eq, solid, read]

/-! ### Containers -/

theorem compactItems_cons_cons (item next : Json) (items : List Json) :
    compactItems (item :: next :: items) = compact item ++ ',' :: compactItems (next :: items) :=
  rfl

theorem compactMembers_cons_cons (key : Option String) (value : Json)
    (next : Option String × Json) (members : List (Option String × Json)) :
    compactMembers ((key, value) :: next :: members) =
      stringText key ++ ':' :: compact value ++ ',' :: compactMembers (next :: members) := by
  rfl

theorem endsNumber_separator : EndsNumber (',' :: rest) := by
  rintro _ ⟨⟩
  decide

theorem endsNumber_bracket : EndsNumber (']' :: rest) := by
  rintro _ ⟨⟩
  decide

theorem endsNumber_brace : EndsNumber ('\x7d' :: rest) := by
  rintro _ ⟨⟩
  decide

theorem readValue?_array {item : Json} {items : List Json}
    (read : readItems? fuel (compactItems (item :: items) ++ rest) = some (item :: items, rest)) :
    readValue? (fuel + 1) (compact (.array (item :: items)) ++ rest) =
      some (.array (item :: items), rest) := by
  obtain ⟨c, cs, eq, solid, noBracket⟩ : ∃ c cs,
      compactItems (item :: items) = c :: cs ∧ isSpace c = false ∧ c ≠ ']' := by
    obtain ⟨c, cs, eq, starts⟩ := exists_compact_eq_cons item
    cases items <;> exact ⟨c, _, by simp only [compactItems, eq]; rfl, starts⟩
  have bracket : skipSpace ('[' :: (c :: cs ++ rest)) = '[' :: (c :: cs ++ rest) :=
    skipSpace_cons rfl _
  have first : skipSpace (c :: cs ++ rest) = c :: cs ++ rest := skipSpace_cons solid _
  rw [eq] at read
  simp only [compact, eq, List.cons_append] at bracket first read ⊢
  simp only [readValue?, bracket, first]
  split
  · next same => exact absurd (List.cons.inj same).1 noBracket
  · rw [read]
    rfl

theorem readValue?_object {key : Option String} {value : Json}
    {members : List (Option String × Json)}
    (read : readMembers? fuel (compactMembers ((key, value) :: members) ++ rest) =
      some ((key, value) :: members, rest)) :
    readValue? (fuel + 1) (compact (.object ((key, value) :: members)) ++ rest) =
      some (.object ((key, value) :: members), rest) := by
  obtain ⟨cs, eq⟩ : ∃ cs, compactMembers ((key, value) :: members) = '\x22' :: cs := by
    obtain ⟨body, eq, -⟩ := exists_stringText_eq key
    cases members <;> exact ⟨_, by simp only [compactMembers, eq]; rfl⟩
  have brace : skipSpace ('\x7b' :: '\x22' :: (cs ++ rest)) = '\x7b' :: '\x22' :: (cs ++ rest) :=
    skipSpace_cons rfl _
  have first : skipSpace ('\x22' :: (cs ++ rest)) = '\x22' :: (cs ++ rest) := skipSpace_cons rfl _
  rw [eq] at read
  simp only [compact, eq, List.cons_append] at read ⊢
  simp only [readValue?, brace, first]
  split
  · next same => exact absurd (List.cons.inj same).1 (by decide)
  · rw [read]
    rfl

section Members

variable (key : Option String) {value : Json} {members : List (Option String × Json)}
variable {text others : List Char}

theorem readMembers?_last (read : readValue? fuel text = some (value, '\x7d' :: rest)) :
    readMembers? (fuel + 1) (stringText key ++ ':' :: text) = some ([(key, value)], rest) := by
  obtain ⟨body, eq, string⟩ := exists_stringText_eq key
  have quote : skipSpace ('\x22' :: (body ++ ':' :: text)) = '\x22' :: (body ++ ':' :: text) :=
    skipSpace_cons rfl _
  have colon : skipSpace (':' :: text) = ':' :: text := skipSpace_cons rfl _
  have brace : skipSpace ('\x7d' :: rest) = '\x7d' :: rest := skipSpace_cons rfl _
  simp [eq, readMembers?, quote, string, colon, read, brace]

theorem readMembers?_next (read : readValue? fuel text = some (value, ',' :: others))
    (readOthers : readMembers? fuel others = some (members, rest)) :
    readMembers? (fuel + 1) (stringText key ++ ':' :: text) =
      some ((key, value) :: members, rest) := by
  obtain ⟨body, eq, string⟩ := exists_stringText_eq key
  have quote : skipSpace ('\x22' :: (body ++ ':' :: text)) = '\x22' :: (body ++ ':' :: text) :=
    skipSpace_cons rfl _
  have colon : skipSpace (':' :: text) = ':' :: text := skipSpace_cons rfl _
  have comma : skipSpace (',' :: others) = ',' :: others := skipSpace_cons rfl _
  simp [eq, readMembers?, quote, string, colon, read, comma, readOthers]

end Members

/-! ### Values -/

mutual

/-- A value is read back from its text, whatever follows that does not go on with a number. -/
theorem readValue?_compact : ∀ (j : Json) (fuel : Nat) (rest : List Char),
    (compact j).length ≤ fuel → EndsNumber rest →
      readValue? fuel (compact j ++ rest) = some (j, rest)
  | j, 0, _, enough, _ => absurd enough (Nat.not_le.mpr (length_compact_pos j))
  | .null, fuel + 1, rest, _, _ => rfl
  | .bool true, fuel + 1, rest, _, _ => rfl
  | .bool false, fuel + 1, rest, _, _ => rfl
  | .natural n, fuel + 1, _, _, ends => readValue?_natural n fuel ends
  | .decimal negative digits places exponent, fuel + 1, _, _, ends =>
      readValue?_decimal negative digits places exponent fuel ends
  | .string text, fuel + 1, rest, _, _ => readValue?_string text fuel rest
  | .array [], fuel + 1, rest, _, _ => rfl
  | .array (item :: items), fuel + 1, rest, enough, _ => by
      have shorter : (compactItems (item :: items)).length ≤ fuel := by
        simpa [compact] using enough
      exact readValue?_array (readItems?_compactItems item items fuel rest shorter)
  | .object [], fuel + 1, rest, _, _ => rfl
  | .object ((key, value) :: members), fuel + 1, rest, enough, _ => by
      have shorter : (compactMembers ((key, value) :: members)).length ≤ fuel := by
        simpa [compact] using enough
      exact readValue?_object (readMembers?_compactMembers key value members fuel rest shorter)

/-- The items of an array are read up to its bracket, given fuel for their text. -/
theorem readItems?_compactItems : ∀ (item : Json) (items : List Json) (fuel : Nat)
    (rest : List Char), (compactItems (item :: items)).length ≤ fuel →
      readItems? fuel (compactItems (item :: items) ++ rest) = some (item :: items, rest)
  | item, [], 0, _, enough => by simp [compactItems] at enough
  | item, [], fuel + 1, rest, enough => by
      have shorter : (compact item).length ≤ fuel := by
        simpa [compactItems] using enough
      have read := readValue?_compact item fuel (']' :: rest) shorter endsNumber_bracket
      have close : skipSpace (']' :: rest) = ']' :: rest := skipSpace_cons rfl rest
      simp [compactItems, readItems?, read, close]
  | item, next :: items, 0, _, enough => by simp [compactItems] at enough
  | item, next :: items, fuel + 1, rest, enough => by
      rw [compactItems_cons_cons] at enough ⊢
      simp only [List.length_append, List.length_cons] at enough
      have read := readValue?_compact item fuel (',' :: (compactItems (next :: items) ++ rest))
        (by omega) endsNumber_separator
      have others := readItems?_compactItems next items fuel rest (by omega)
      have comma : skipSpace (',' :: (compactItems (next :: items) ++ rest)) =
          ',' :: (compactItems (next :: items) ++ rest) := skipSpace_cons rfl _
      simp [readItems?, read, comma, others]

/-- The members of an object are read up to its brace, given fuel for their text. -/
theorem readMembers?_compactMembers : ∀ (key : Option String) (value : Json)
    (members : List (Option String × Json)) (fuel : Nat) (rest : List Char),
    (compactMembers ((key, value) :: members)).length ≤ fuel →
      readMembers? fuel (compactMembers ((key, value) :: members) ++ rest) =
        some ((key, value) :: members, rest)
  | key, value, [], 0, _, enough => by simp [compactMembers] at enough
  | key, value, [], fuel + 1, rest, enough => by
      simp only [compactMembers, List.length_append, List.length_cons] at enough
      have read := readValue?_compact value fuel ('\x7d' :: rest) (by omega) endsNumber_brace
      simpa [compactMembers] using readMembers?_last key read
  | key, value, next :: members, 0, _, enough => by simp [compactMembers] at enough
  | key, value, (nextKey, nextValue) :: members, fuel + 1, rest, enough => by
      rw [compactMembers_cons_cons] at enough ⊢
      simp only [List.length_append, List.length_cons] at enough
      have read := readValue?_compact value fuel
        (',' :: (compactMembers ((nextKey, nextValue) :: members) ++ rest)) (by omega)
        endsNumber_separator
      have others := readMembers?_compactMembers nextKey nextValue members fuel rest (by omega)
      simpa using readMembers?_next key read others

end

/-- The compact text of a value is read as the value. -/
theorem parse?_render (j : Json) : parse? j.render = some j := by
  have enough : (compact j).length ≤ (compact j).length + 1 := Nat.le_succ _
  have nothing : EndsNumber [] := nofun
  have read := readValue?_compact j _ [] enough nothing
  rw [List.append_nil] at read
  simp [parse?, render, read, skipSpace]

end MachinePool.Json
