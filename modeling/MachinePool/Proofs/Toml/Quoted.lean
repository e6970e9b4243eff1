import MachinePool.Proofs.Text.Digits
import MachinePool.Toml.Quoted

/-!
A text between quotes is read back, whichever style it is written in.

* `readLine?_escapeLine`, `readLiteral?_append`: on one line a text ends at the
  first quote that stands for itself, and no quote of the text does.
* `ReadsBlock.read_append`: a block is a row of quotes and of characters that are
  spelled without a quote at the front. With at most two quotes in a row, the
  closing three are the first three in a row, or the last three of the four or
  five the block ends in; those before them belong to the text. This is said once
  for both kinds of quotes.
* `fits_styleOf`: the style that is chosen for a text can hold it, since nothing
  that needs an escape goes to a style without escapes.
* `readText?_writeText` puts them together.

What follows the text may not begin with a quote: after an empty text, or after a
block, it would be read as part of it.
-/

namespace MachinePool.Toml

open Text

variable {c : Char} {cs rest spelling body : List Char} {quotes : Nat}

theorem singleQuote_ne_doubleQuote : singleQuote ≠ doubleQuote := by decide

/-! ### Spelled characters -/

/-- Only a control or a newline may not stand in a text as it is. -/
theorem isPlain_iff : isPlain c = true ↔ isControl c = false ∧ c ≠ '\n' := by
  have low : ∀ n < 32, isPlain (Char.ofNat n) = true ↔
      isControl (Char.ofNat n) = false ∧ Char.ofNat n ≠ '\n' := by decide
  by_cases small : c < ' '
  · have ascii := low c.toNat small
    rwa [Char.ofNat_toNat] at ascii
  · have high : ' ' ≤ c := Char.not_lt.mp small
    have noNewline : c ≠ '\n' := by
      rintro rfl
      exact small (by decide)
    simp [isPlain, isControl, small, high, noNewline]

theorem toNat_lt_of_isControl (control : isControl c = true) : c.toNat < 128 := by
  simp only [isControl, Bool.or_eq_true, Bool.and_eq_true, decide_eq_true_eq, beq_iff_eq] at control
  rcases control with ⟨⟨low, -⟩, -⟩ | rfl
  · exact Nat.lt_trans (show c.toNat < 32 from low) (by decide)
  · decide

/-- How a character may be spelled between double quotes, on one line or in a block. -/
inductive Spells (block : Bool) (c : Char) : List Char → Prop
  /-- It stands for itself. -/
  | plain (plain : isPlain c = true) (quote : c ≠ doubleQuote) (backslash : c ≠ '\\') :
      Spells block c [c]
  /-- A newline stands for itself in a block. -/
  | newline (inBlock : block = true) (newline : c = '\n') : Spells block c [c]
  /-- A letter stands for it after a backslash. -/
  | letter {letter : Char} (escapes : escapedChar? letter = some c) :
      Spells block c ['\\', letter]
  /-- Its code point is written out. -/
  | code (small : c.toNat < 128) :
      Spells block c ('\\' :: 'u' :: fourHexDigits upperHexDigit c.toNat)

theorem spells_escapeChar (block : Bool) (quote : c ≠ doubleQuote) :
    Spells block c (escapeChar block c) := by
  unfold escapeChar
  split_ifs with back tab newline inBlock feed carriage backslash control
  · exact .letter (by rw [back]; rfl)
  · exact .letter (by rw [tab]; rfl)
  · subst newline
    exact .newline inBlock rfl
  · exact .letter (by rw [newline]; rfl)
  · exact .letter (by rw [feed]; rfl)
  · exact .letter (by rw [carriage]; rfl)
  · exact .letter (by rw [backslash]; rfl)
  · exact .code (toNat_lt_of_isControl control)
  · exact .plain (isPlain_iff.mpr ⟨Bool.eq_false_iff.mpr control, newline⟩) quote backslash

theorem spells_escapeLine (c : Char) : Spells false c
    (if c = doubleQuote then ['\\', doubleQuote] else escapeChar false c) := by
  split
  · next quote => exact .letter (by rw [quote]; rfl)
  · next other => exact spells_escapeChar false other

/-- No spelling begins with a quote, and only that of a newline begins as the end of a line. -/
theorem Spells.starts {block : Bool} (spells : Spells block c spelling) :
    ∃ first more, spelling = first :: more ∧ first ≠ doubleQuote ∧ first ≠ '\r' ∧
      (first = '\n' → c = '\n') := by
  cases spells with
  | plain plain quote =>
      refine ⟨_, _, rfl, quote, ?_, id⟩
      rintro rfl
      cases plain
  | newline _ newline => exact ⟨_, _, rfl, newline ▸ by decide, newline ▸ by decide, id⟩
  | letter => exact ⟨_, _, rfl, by decide, by decide, nofun⟩
  | code => exact ⟨_, _, rfl, by decide, by decide, nofun⟩

/-- Four digits in upper case are read back, and they are the code point of a character. -/
theorem scalar?_fourHexDigits (small : c.toNat < 128) :
    (readDigits? 16 (fourHexDigits upperHexDigit c.toNat)).bind scalar? = some c := by
  have lower : ∀ k < 16, (upperHexDigit k).toLower = hexDigit k := by decide
  have bound : ∀ k, k % 16 < 16 := fun k => Nat.mod_lt k (by decide)
  have digits : (fourHexDigits upperHexDigit c.toNat).map Char.toLower =
      fourHexDigits hexDigit c.toNat := by
    simp [fourHexDigits, lower _ (bound _)]
  have read := (readDigits?_sixteen_iff rfl).mpr ⟨by omega, digits⟩
  rw [read, Option.bind_some, scalar?, if_pos (by omega), Char.ofNat_toNat]

theorem ne_of_escapedChar? {letter : Char} (escapes : escapedChar? letter = some c) :
    letter ≠ 'u' ∧ letter ≠ 'U' ∧ isBlank letter = false ∧ letter ≠ '\n' ∧ letter ≠ '\r' := by
  unfold escapedChar? at escapes
  split_ifs at escapes <;> (subst letter; decide)

/-! ### One line -/

theorem readLine?_spelling (spells : Spells false c spelling) (rest : List Char) :
    readLine? (spelling ++ rest) = consText c (readLine? rest) := by
  cases spells with
  | plain plain quote backslash =>
      rw [List.singleton_append, readLine?.eq_5, if_neg quote,
        if_pos (by simp [plain, backslash])]
      · intro _ _ _ _ _ same
        exact absurd same backslash
      · intro _ _ _ _ _ _ _ _ _ same
        exact absurd same backslash
      · intro _ _ same
        exact absurd same backslash
  | newline inBlock => cases inBlock
  | letter escapes =>
      obtain ⟨noCode, noLongCode, -⟩ := ne_of_escapedChar? escapes
      rw [List.cons_append, List.singleton_append, readLine?.eq_4, escapes]
      · rfl
      · intro _ _ _ _ _ same
        exact absurd same noCode
      · intro _ _ _ _ _ _ _ _ _ same
        exact absurd same noLongCode
  | code small =>
      obtain ⟨n, read, scalar⟩ := Option.bind_eq_some_iff.mp (scalar?_fourHexDigits small)
      simp only [fourHexDigits] at read
      simp only [fourHexDigits, List.cons_append, List.nil_append, readLine?, read,
        Option.bind_eq_bind, Option.bind_some, scalar]

/-- An escaped line is read up to its closing quote. -/
theorem readLine?_escapeLine (cs rest : List Char) :
    readLine? (escapeLine cs ++ doubleQuote :: rest) = some (cs, rest) := by
  induction cs with
  | nil => simp [escapeLine, readLine?, doubleQuote]
  | cons c cs ih =>
      rw [escapeLine, List.append_assoc, readLine?_spelling (spells_escapeLine c), ih]
      rfl

theorem readLiteral?_append (plain : ∀ c ∈ cs, isPlain c = true) (free : singleQuote ∉ cs)
    (rest : List Char) : readLiteral? (cs ++ singleQuote :: rest) = some (cs, rest) := by
  induction cs with
  | nil => rfl
  | cons c cs ih =>
      obtain ⟨first, others⟩ := List.forall_mem_cons.mp plain
      obtain ⟨apart, free⟩ := not_or.mp (mt List.mem_cons.mpr free)
      rw [List.cons_append, readLiteral?, if_neg (Ne.symm apart), if_pos first, ih others free]
      rfl

/-! ### Blocks -/

/-- A reader of blocks with a quote: it ends at three quotes in a row, and reads every other
character as it may be spelled. -/
structure ReadsBlock (q : Char) (Spelling : Char → List Char → Prop)
    (read : List Char → Option (List Char × List Char)) : Prop where
  quote : ∀ rest, read (q :: rest) =
    if startsTriple q (q :: rest) then some (closeBlock q (rest.drop 2)) else consText q (read rest)
  char : ∀ {c spelling}, Spelling c spelling →
    ∀ rest, read (spelling ++ rest) = consText c (read rest)
  line : q ≠ '\n' ∧ q ≠ '\r'
  /-- No spelling begins as the end of a block does, and only a newline as a newline does. -/
  starts : ∀ {c spelling}, Spelling c spelling → ∃ first more, spelling = first :: more ∧
    first ≠ q ∧ first ≠ '\r' ∧ (first = '\n' → c = '\n')

/-- A text as it may be spelled in a block, when some quotes stand right before: no more than two
quotes stand in a row. -/
inductive SpellsBlock (q : Char) (Spelling : Char → List Char → Prop) :
    Nat → List Char → List Char → Prop
  | nil {quotes : Nat} : SpellsBlock q Spelling quotes [] []
  | quote {quotes : Nat} {cs body : List Char} (few : quotes < 2)
      (others : SpellsBlock q Spelling (quotes + 1) cs body) :
      SpellsBlock q Spelling quotes (q :: cs) (q :: body)
  | char {quotes : Nat} {c : Char} {cs spelling body : List Char} (first : Spelling c spelling)
      (others : SpellsBlock q Spelling 0 cs body) :
      SpellsBlock q Spelling quotes (c :: cs) (spelling ++ body)

section Block

variable {q : Char} {Spelling : Char → List Char → Prop}
  {read : List Char → Option (List Char × List Char)}

theorem closeBlock_of_apart (apart : rest.head? ≠ some q) :
    closeBlock q rest = ([], rest) ∧ closeBlock q (q :: rest) = ([q], rest) := by
  cases rest with
  | nil => simp [closeBlock]
  | cons c rest =>
      have other : c ≠ q := by simpa using apart
      cases rest <;> simp [closeBlock, other]

theorem ReadsBlock.not_startsTriple (reads : ReadsBlock q Spelling read)
    (spelled : Spelling c spelling) (rest : List Char) :
    startsTriple q (q :: (spelling ++ rest)) = false ∧
      startsTriple q (q :: q :: (spelling ++ rest)) = false := by
  obtain ⟨first, more, rfl, apart, -, -⟩ := reads.starts spelled
  simp [startsTriple, apart]

/-- A block ends at its last three quotes. -/
theorem ReadsBlock.read_append (reads : ReadsBlock q Spelling read) (apart : rest.head? ≠ some q)
    (spells : SpellsBlock q Spelling quotes cs body) :
    read (body ++ q :: q :: q :: rest) = some (cs, rest) := by
  obtain ⟨closeNone, closeOne⟩ := closeBlock_of_apart apart
  induction spells with
  | nil =>
      rw [List.nil_append, reads.quote, if_pos (by simp [startsTriple])]
      exact congrArg some closeNone
  | @quote quotes cs body few others ih =>
      rw [List.cons_append, reads.quote]
      -- Three quotes in a row end the block only when no more than two of its own are left.
      split
      · next ends =>
          cases others with
          | nil => exact congrArg some closeOne
          | @quote _ cs body fewer others =>
              cases others with
              | nil => simp [closeBlock]
              | quote none => omega
              | char first others =>
                  rw [List.cons_append, List.append_assoc,
                    (reads.not_startsTriple first _).2] at ends
                  cases ends
          | char first others =>
              rw [List.append_assoc, (reads.not_startsTriple first _).1] at ends
              cases ends
      · rw [ih]
        rfl
  | char first others ih =>
      rw [List.append_assoc, reads.char first, ih]
      rfl

theorem dropNewline_of_head? (newline : cs.head? ≠ some '\n') (carriage : cs.head? ≠ some '\r') :
    dropNewline cs = cs := by
  rw [dropNewline.eq_3]
  · rintro _ rfl
    exact newline rfl
  · rintro _ rfl
    exact carriage rfl

/-- A block of a text on one line begins on the line of its opening quotes. -/
theorem ReadsBlock.dropNewline_append (reads : ReadsBlock q Spelling read)
    (spells : SpellsBlock q Spelling quotes cs body) (oneLine : '\n' ∉ cs) :
    dropNewline (body ++ q :: q :: q :: rest) = body ++ q :: q :: q :: rest := by
  obtain ⟨newline, carriage⟩ := reads.line
  cases spells with
  | nil => exact dropNewline_of_head? (by simpa using newline) (by simpa using carriage)
  | quote => exact dropNewline_of_head? (by simpa using newline) (by simpa using carriage)
  | char spelled =>
      obtain ⟨first, more, rfl, -, noReturn, newline⟩ := reads.starts spelled
      obtain ⟨other, -⟩ := not_or.mp (mt List.mem_cons.mpr oneLine)
      refine dropNewline_of_head? ?_ (by simpa using noReturn)
      intro head
      exact other (newline (by simpa using head)).symm

/-- The newline that a block may begin with does not belong to its text. -/
theorem ReadsBlock.read_blockStart (reads : ReadsBlock q Spelling read)
    (apart : rest.head? ≠ some q) (spells : SpellsBlock q Spelling quotes cs body) :
    read (dropNewline (blockStart cs ++ (body ++ q :: q :: q :: rest))) = some (cs, rest) := by
  have same : dropNewline (blockStart cs ++ (body ++ q :: q :: q :: rest)) =
      body ++ q :: q :: q :: rest := by
    unfold blockStart
    split
    · rfl
    · next oneLine => exact reads.dropNewline_append spells (by simpa using oneLine)
  rw [same, reads.read_append apart spells]

end Block

/-- A spelled character of a block is read as the character. -/
theorem readBlock?_spelling (spells : Spells true c spelling) (rest : List Char) :
    readBlock? false (spelling ++ rest) = consText c (readBlock? false rest) := by
  cases spells with
  | plain plain quote backslash =>
      have noReturn : c ≠ '\r' := by
        rintro rfl
        cases plain
      rw [List.singleton_append, readBlock?.eq_6, if_neg quote]
      · simp [plain, backslash]
      · intro _ _ _ _ _ same
        exact absurd same backslash
      · intro _ _ _ _ _ _ _ _ _ same
        exact absurd same backslash
      · intro _ same
        exact absurd same noReturn
      · intro _ _ same
        exact absurd same backslash
  | newline _ newline =>
      subst newline
      simp [readBlock?, doubleQuote]
  | @letter letter escapes =>
      obtain ⟨noCode, noLongCode, noBlank, noNewline, noReturn⟩ := ne_of_escapedChar? escapes
      have within : endsLine (letter :: rest) = false := by
        simp [endsLine, noBlank, noNewline, noReturn]
      rw [List.cons_append, List.singleton_append, readBlock?.eq_5, within, escapes]
      · rfl
      · intro _ _ _ _ _ same
        exact absurd same noCode
      · intro _ _ _ _ _ _ _ _ _ same
        exact absurd same noLongCode
  | code small =>
      obtain ⟨n, read, scalar⟩ := Option.bind_eq_some_iff.mp (scalar?_fourHexDigits small)
      simp only [fourHexDigits] at read
      simp only [fourHexDigits, List.cons_append, List.nil_append, readBlock?, read,
        Option.bind_eq_bind, Option.bind_some, scalar]

theorem readsBlock_basic : ReadsBlock doubleQuote (Spells true) (readBlock? false) where
  quote rest := by
    have noBackslash : doubleQuote ≠ '\\' := by decide
    have noReturn : doubleQuote ≠ '\r' := by decide
    rw [readBlock?.eq_6, if_pos rfl]
    · intro _ _ _ _ _ same
      exact absurd same noBackslash
    · intro _ _ _ _ _ _ _ _ _ same
      exact absurd same noBackslash
    · intro _ same
      exact absurd same noReturn
    · intro _ _ same
      exact absurd same noBackslash
  char spells := readBlock?_spelling spells
  line := by decide
  starts spells := spells.starts

/-- An escaped block has no three quotes in a row. -/
theorem spellsBlock_escapeBlock (few : quotes ≤ 2) :
    SpellsBlock doubleQuote (Spells true) quotes cs (escapeBlock quotes cs) := by
  induction cs generalizing quotes with
  | nil => exact .nil
  | cons c cs ih =>
      unfold escapeBlock
      split_ifs with quote room
      · subst quote
        exact .quote room (ih (by omega))
      · exact .char (.letter (by rw [quote]; rfl)) (ih (by omega))
      · exact .char (spells_escapeChar true quote) (ih (by omega))

/-- How a character stands in a block without escapes. -/
def SpellsLiteral (c : Char) (spelling : List Char) : Prop :=
  spelling = [c] ∧ isControl c = false ∧ c ≠ singleQuote

theorem readsBlock_literal : ReadsBlock singleQuote SpellsLiteral readLiteralBlock? where
  quote rest := by
    rw [readLiteralBlock?.eq_3, if_pos rfl]
    exact nofun
  char := by
    rintro c _ ⟨rfl, control, quote⟩ rest
    have stands : (isPlain c || decide (c = '\n')) = true := by
      by_cases newline : c = '\n'
      · simp [newline]
      · simp [isPlain_iff.mpr ⟨control, newline⟩]
    rw [List.singleton_append, readLiteralBlock?.eq_3, if_neg quote, if_pos stands]
    rintro _ rfl
    cases control
  line := by decide
  starts := by
    rintro c _ ⟨rfl, control, quote⟩
    refine ⟨c, [], rfl, quote, ?_, id⟩
    rintro rfl
    cases control

theorem le_longestRunFrom (q : Char) (here : Nat) (cs : List Char) :
    here ≤ longestRunFrom q here cs := by
  induction cs generalizing here with
  | nil => exact Nat.le_refl here
  | cons c cs ih =>
      unfold longestRunFrom
      split
      · exact Nat.le_of_succ_le (ih (here + 1))
      · exact Nat.le_max_left here _

theorem not_mem_of_longestRun {q : Char} (none : longestRun q cs = 0) : q ∉ cs := by
  unfold longestRun at none
  induction cs with
  | nil => exact List.not_mem_nil
  | cons c cs ih =>
      unfold longestRunFrom at none
      split at none
      · have run := le_longestRunFrom q (0 + 1) cs
        omega
      · next other =>
          rw [List.mem_cons, not_or]
          exact ⟨Ne.symm other, ih (by omega)⟩

theorem spellsBlock_self (controls : ∀ c ∈ cs, isControl c = false)
    (short : longestRunFrom singleQuote quotes cs ≤ 2) :
    SpellsBlock singleQuote SpellsLiteral quotes cs cs := by
  induction cs generalizing quotes with
  | nil => exact .nil
  | cons c cs ih =>
      obtain ⟨control, others⟩ := List.forall_mem_cons.mp controls
      unfold longestRunFrom at short
      split at short
      · next quote =>
          subst quote
          have here := le_longestRunFrom singleQuote (quotes + 1) cs
          exact .quote (by omega) (ih others short)
      · next other => exact .char ⟨rfl, control, other⟩ (ih others (by omega))

/-! ### Styles -/

/-- Whether a style can hold a text as it stands; the styles with escapes hold every text. -/
def Style.Fits : Style → List Char → Prop
  | .literal, cs => (∀ c ∈ cs, isPlain c = true) ∧ singleQuote ∉ cs
  | .blockLiteral, cs => (∀ c ∈ cs, isControl c = false) ∧ longestRun singleQuote cs ≤ 2
  | .basic, _ | .blockBasic, _ => True

/-- The chosen style fits the text. -/
theorem fits_styleOf (cs : List Char) : (styleOf cs).Fits cs := by
  unfold styleOf
  simp only
  split_ifs with basic literal blockBasic blockLiteral lines
  · trivial
  · simp only [Bool.and_eq_true, Bool.not_eq_true', decide_eq_true_eq, List.any_eq_false,
      Bool.not_eq_true, List.contains_eq_mem, decide_eq_false_iff_not] at literal
    obtain ⟨⟨controls, oneLine⟩, free⟩ := literal
    refine ⟨fun c mem => isPlain_iff.mpr ⟨controls c mem, ?_⟩, not_mem_of_longestRun free⟩
    rintro rfl
    exact oneLine mem
  · trivial
  · simp only [Bool.and_eq_true, Bool.not_eq_true', decide_eq_true_eq, List.any_eq_false,
      Bool.not_eq_true] at blockLiteral
    exact blockLiteral
  · trivial
  · trivial

/-- A text on one line does not begin as a block does. -/
theorem startsTriple_line {q : Char} (first : body.head? ≠ some q) (next : rest.head? ≠ some q) :
    startsTriple q (q :: (body ++ q :: rest)) = false := by
  cases body with
  | nil =>
      cases rest with
      | nil => simp [startsTriple]
      | cons c rest => simpa [startsTriple] using next
  | cons c body => simp_all [startsTriple]

theorem head?_escapeLine_ne (cs : List Char) : (escapeLine cs).head? ≠ some doubleQuote := by
  cases cs with
  | nil => nofun
  | cons c cs =>
      obtain ⟨first, more, spelling, apart, -⟩ := (spells_escapeLine c).starts
      rw [escapeLine, spelling]
      simpa using apart

/-- A text is read back from every style that fits it. -/
theorem readText?_writeIn {style : Style} (fits : style.Fits cs)
    (noDouble : rest.head? ≠ some doubleQuote) (noSingle : rest.head? ≠ some singleQuote) :
    readText? (writeIn style cs ++ rest) = some (cs, rest) := by
  cases style with
  | basic =>
      have one := startsTriple_line (head?_escapeLine_ne cs) noDouble
      have other : startsTriple singleQuote
          (doubleQuote :: (escapeLine cs ++ doubleQuote :: rest)) = false := rfl
      simp [writeIn, readText?, one, other, readLine?_escapeLine]
  | literal =>
      obtain ⟨plain, free⟩ := fits
      have first : cs.head? ≠ some singleQuote := fun head => free (List.mem_of_head? head)
      have one := startsTriple_line first noSingle
      have other : startsTriple doubleQuote
          (singleQuote :: (cs ++ singleQuote :: rest)) = false := rfl
      simp [writeIn, readText?, one, other, singleQuote_ne_doubleQuote,
        readLiteral?_append plain free]
  | blockBasic =>
      have spells : SpellsBlock doubleQuote (Spells true) 0 cs (escapeBlock 0 cs) :=
        spellsBlock_escapeBlock (by decide)
      have read := readsBlock_basic.read_blockStart noDouble spells
      simpa [writeIn, readText?, startsTriple, List.replicate] using read
  | blockLiteral =>
      obtain ⟨controls, short⟩ := fits
      have read := readsBlock_literal.read_blockStart noSingle (spellsBlock_self controls short)
      simpa [writeIn, readText?, startsTriple, List.replicate, singleQuote_ne_doubleQuote] using read

/-- A text is read back from the style it is written in. -/
theorem readText?_writeText (s : String) (noDouble : rest.head? ≠ some doubleQuote)
    (noSingle : rest.head? ≠ some singleQuote) :
    readText? (writeText s ++ rest) = some (s.toList, rest) :=
  readText?_writeIn (fits_styleOf s.toList) noDouble noSingle

/-- A text that ends in two quotes ends in five when it is written. -/
example : String.ofList (writeText "'\"\"") = "\"\"\"'\"\"\"\"\"" := by decide +kernel

end MachinePool.Toml
