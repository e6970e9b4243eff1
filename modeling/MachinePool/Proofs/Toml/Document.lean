import MachinePool.Proofs.Toml.Quoted
import MachinePool.Toml.Reader

/-!
A document of sections is read back.

A value is read back when nothing but the end of its line follows it: a text in
whichever style it is written (`readsValue_writeText`), and a natural number that
fits into sixty-four bits with a sign (`readsValue_decimalDigits`), whose digits
are neither a moment in time nor a number in another base.

A section is a header and one setting below it. Reading one adds one table to the
document (`readLines?_lines`), provided that no table has its name yet; so a row of
sections with names of their own is read as the row of their tables
(`readLines?_sections`, `parse?_sections`).
-/

namespace MachinePool.Toml

open Text

variable {c : Char} {cs rest : List Char} {n : Nat}

/-- A character that passes a test is none of those that fail it. -/
theorem ne_of_test {test : Char → Bool} {mark : Char} (passes : test c = true)
    (fails : test mark = false) : c ≠ mark := by
  rintro rfl
  rw [fails] at passes
  cases passes

/-! ### Numbers -/

theorem isWordChar_of_isDigit (digit : c.isDigit = true) : isWordChar c = true := by
  simp [isWordChar, Char.isAlphanum, digit]

theorem after?_of_isDigit {mark : Char} (noDigit : mark.isDigit = false)
    (digits : ∀ c ∈ cs, c.isDigit = true) : after? mark cs = none := by
  cases cs with
  | nil => rfl
  | cons c cs =>
      have other : c ≠ mark := ne_of_test (digits c List.mem_cons_self) noDigit
      rw [after?, if_neg other]

/-- Digits are no date. -/
theorem skipDate?_of_isDigit (digits : ∀ c ∈ cs, c.isDigit = true) : skipDate? cs = none := by
  unfold skipDate?
  split
  · next a b c d rest =>
      have noMark : after? '-' rest = none :=
        after?_of_isDigit rfl fun c mem => digits c (by simp [mem])
      simp [noMark]
  · rfl

theorem mem_of_twoDigits? {most : Nat} (read : twoDigits? most cs = some (n, rest))
    (mem : c ∈ rest) : c ∈ cs := by
  unfold twoDigits? at read
  split at read
  · next a b more =>
      obtain ⟨n, -, small⟩ := Option.bind_eq_some_iff.mp read
      split at small
      · cases small
        exact List.mem_cons_of_mem _ (List.mem_cons_of_mem _ mem)
      · cases small
  · cases read

/-- Digits are no time of day. -/
theorem skipTime?_of_isDigit (digits : ∀ c ∈ cs, c.isDigit = true) : skipTime? cs = none := by
  unfold skipTime?
  cases hour : twoDigits? 23 cs with
  | none => rfl
  | some read =>
      have noMark : after? ':' read.2 = none :=
        after?_of_isDigit rfl fun c mem => digits c (mem_of_twoDigits? hour mem)
      simp [noMark]

theorem ungrouped?_of_isDigit (nonempty : cs ≠ []) (digits : ∀ c ∈ cs, c.isDigit = true) :
    ungrouped? 10 cs = some cs := by
  fun_induction ungrouped? 10 cs with
  | case1 => exact absurd rfl nonempty
  | case2 c => simp [digitValue?_of_isDigit (digits c (by simp))]
  | case3 c rest ih =>
      have grouped := digits '_' (by simp)
      cases grouped
  | case4 c rest notAlone noGroup ih =>
      obtain ⟨first, others⟩ := List.forall_mem_cons.mp digits
      simp [digitValue?_of_isDigit first, ih notAlone others]

theorem wholeDigits?_decimalDigits (n : Nat) :
    wholeDigits? (decimalDigits n) = some (decimalDigits n) := by
  have noZeros : ¬ ((decimalDigits n).head? = some '0' ∧ decimalDigits n ≠ ['0']) := by
    rintro ⟨zero, long⟩
    rcases Nat.eq_zero_or_pos n with rfl | positive
    · exact long rfl
    · exact head?_decimalDigits_ne positive zero
  rw [wholeDigits?, if_neg noZeros]
  exact ungrouped?_of_isDigit (decimalDigits_ne_nil n) fun _ => isDigit_of_mem_decimalDigits

theorem splitSign_of_isDigit (digits : ∀ c ∈ cs, c.isDigit = true) : splitSign cs = (false, cs) := by
  rw [splitSign.eq_3]
  · rintro _ rfl
    simp at digits
  · rintro _ rfl
    simp at digits

theorem boundedInteger?_natCast (small : n < 0x8000000000000000) :
    boundedInteger? n = some (.integer n) := by
  rw [boundedInteger?, if_pos (by omega)]

/-- A natural number within the bounds is read back. -/
theorem integer?_decimalDigits (small : n < 0x8000000000000000) :
    integer? (decimalDigits n) = some (.integer n) := by
  have digits : ∀ c ∈ decimalDigits n, c.isDigit = true := fun _ => isDigit_of_mem_decimalDigits
  rw [integer?.eq_4]
  · rw [splitSign_of_isDigit digits]
    exact Option.bind_eq_some_iff.mpr ⟨_, wholeDigits?_decimalDigits n,
      Option.bind_eq_some_iff.mpr ⟨n, readDigits?_decimalDigits n, boundedInteger?_natCast small⟩⟩
  · intro _ same
    simp [same] at digits
  · intro _ same
    simp [same] at digits
  · intro _ same
    simp [same] at digits

theorem word?_decimalDigits (small : n < 0x8000000000000000) :
    word? (decimalDigits n) = some (.integer n) := by
  have digits : ∀ c ∈ decimalDigits n, c.isDigit = true := fun _ => isDigit_of_mem_decimalDigits
  have noDate : isDate (decimalDigits n) = false := by
    simp [isDate, skipDate?_of_isDigit digits]
  have noTime : skipTime? (decimalDigits n) ≠ some [] := by
    simp [skipTime?_of_isDigit digits]
  have noWord : decimalDigits n ≠ ['t', 'r', 'u', 'e'] ∧
      decimalDigits n ≠ ['f', 'a', 'l', 's', 'e'] := by
    constructor
    · intro same
      simp [same] at digits
    · intro same
      simp [same] at digits
  simp [word?, noWord, noDate, noTime, integer?_decimalDigits small]

/-- A numeral at the end of a line is read as an integer, and not as a date or a time. -/
theorem readWord?_decimalDigits (small : n < 0x8000000000000000) (rest : List Char) :
    readWord? (decimalDigits n ++ '\n' :: rest) = some (.integer n, '\n' :: rest) := by
  have wordChars : ∀ c ∈ decimalDigits n, isWordChar c = true := fun c mem =>
    isWordChar_of_isDigit (isDigit_of_mem_decimalDigits mem)
  have ends : ∀ c ∈ ('\n' :: rest).head?, isWordChar c = false := by
    rintro _ ⟨⟩
    rfl
  obtain ⟨front, back⟩ := span_append wordChars ends
  simp [readWord?, front, back, word?_decimalDigits small]

/-! ### Values -/

/-- Whether a text is read as a value when its line ends after it. -/
structure ReadsValue (text : List Char) (value : Toml) : Prop where
  read : ∀ fuel room rest,
    readValue? (fuel + 1) room (text ++ '\n' :: rest) = some (value, '\n' :: rest)
  starts : ∀ rest, skipBlanks (text ++ rest) = text ++ rest

theorem skipBlanks_cons (noBlank : isBlank c = false) (rest : List Char) :
    skipBlanks (c :: rest) = c :: rest := by
  simp [skipBlanks, noBlank]

/-- A value that begins with neither bracket nor brace is a text or a word. -/
theorem readValue?_cons (bracket : c ≠ '[') (brace : c ≠ '\x7b') (fuel room : Nat)
    (rest : List Char) : readValue? (fuel + 1) room (c :: rest) =
      if c = doubleQuote || c = singleQuote then
        (readText? (c :: rest)).map fun (front, rest) => (.text (String.ofList front), rest)
      else readWord? (c :: rest) := by
  rw [readValue?]
  · exact bracket
  · exact brace

theorem exists_writeText_eq_cons (s : String) :
    ∃ q more, writeText s = q :: more ∧ (q = doubleQuote ∨ q = singleQuote) := by
  unfold writeText writeIn
  cases styleOf s.toList with
  | basic => exact ⟨_, _, rfl, .inl rfl⟩
  | literal => exact ⟨_, _, rfl, .inr rfl⟩
  | blockBasic => exact ⟨_, _, rfl, .inl rfl⟩
  | blockLiteral => exact ⟨_, _, rfl, .inr rfl⟩

/-- A written text is read as the text. -/
theorem readsValue_writeText (s : String) : ReadsValue (writeText s) (.text s) := by
  obtain ⟨q, more, written, quote⟩ := exists_writeText_eq_cons s
  constructor
  · intro fuel room rest
    have read : readText? (writeText s ++ '\n' :: rest) = some (s.toList, '\n' :: rest) :=
      readText?_writeText s nofun nofun
    rw [written, List.cons_append] at read ⊢
    rw [readValue?_cons, if_pos (by simpa using quote), read]
    · simp
    · rcases quote with rfl | rfl <;> decide
    · rcases quote with rfl | rfl <;> decide
  · intro rest
    rw [written, List.cons_append]
    exact skipBlanks_cons (by rcases quote with rfl | rfl <;> rfl) _

theorem readsValue_decimalDigits (small : n < 0x8000000000000000) :
    ReadsValue (decimalDigits n) (.integer n) := by
  obtain ⟨c, more, written⟩ := List.exists_cons_of_ne_nil (decimalDigits_ne_nil n)
  have digit : c.isDigit = true := isDigit_of_mem_decimalDigits (written ▸ List.mem_cons_self)
  constructor
  · intro fuel room rest
    have read := readWord?_decimalDigits small rest
    rw [written, List.cons_append] at read ⊢
    have noQuote : c ≠ doubleQuote ∧ c ≠ singleQuote :=
      ⟨ne_of_test digit rfl, ne_of_test digit rfl⟩
    rw [readValue?_cons (ne_of_test digit rfl) (ne_of_test digit rfl),
      if_neg (by simp [noQuote]), read]
  · intro rest
    rw [written, List.cons_append]
    have noBlank : c ≠ ' ' ∧ c ≠ '\t' := ⟨ne_of_test digit rfl, ne_of_test digit rfl⟩
    exact skipBlanks_cons (by simp [isBlank, noBlank]) _

/-! ### Keys -/

structure IsBare (key : List Char) : Prop where
  nonempty : key ≠ []
  keyChars : ∀ c ∈ key, isKeyChar c = true

instance (key : List Char) : Decidable (IsBare key) :=
  decidable_of_iff (key ≠ [] ∧ key.all isKeyChar = true)
    ⟨fun bare => ⟨bare.1, List.all_eq_true.mp bare.2⟩,
      fun bare => ⟨bare.nonempty, List.all_eq_true.mpr bare.keyChars⟩⟩

theorem IsBare.exists_eq_cons {key : List Char} (bare : IsBare key) :
    ∃ c more, key = c :: more ∧ isKeyChar c = true := by
  obtain ⟨c, more, rfl⟩ := List.exists_cons_of_ne_nil bare.nonempty
  exact ⟨c, more, rfl, bare.keyChars c List.mem_cons_self⟩

theorem isBlank_of_isKeyChar (keyChar : isKeyChar c = true) : isBlank c = false := by
  have noBlank : c ≠ ' ' ∧ c ≠ '\t' := ⟨ne_of_test keyChar rfl, ne_of_test keyChar rfl⟩
  simp [isBlank, noBlank]

theorem readKey?_bare {key : String} (bare : IsBare key.toList)
    (ends : ∀ c ∈ rest.head?, isKeyChar c = false) :
    readKey? (key.toList ++ rest) = some (key, rest) := by
  obtain ⟨front, back⟩ := span_append bare.keyChars ends
  obtain ⟨c, more, starts, keyChar⟩ := bare.exists_eq_cons
  have noQuote : c ≠ doubleQuote ∧ c ≠ singleQuote :=
    ⟨ne_of_test keyChar rfl, ne_of_test keyChar rfl⟩
  have same : String.ofList (c :: more) = key := by rw [← starts, String.ofList_toList]
  rw [starts, List.cons_append] at front back ⊢
  simp only [readKey?, noQuote, if_false, front, back, same]

/-- A key of one part. -/
theorem readDottedKey?_bare {key : String} (bare : IsBare key.toList)
    (ends : ∀ c ∈ rest.head?, isKeyChar c = false) (single : (skipBlanks rest).head? ≠ some '.') :
    readDottedKey? (key.toList ++ rest) = some (([], key), skipBlanks rest) := by
  have read := readKey?_bare bare ends
  obtain ⟨c, more, starts, keyChar⟩ := bare.exists_eq_cons
  have path : readPath? nestingLimit (key.toList ++ rest) = some ([key], skipBlanks rest) := by
    rw [starts, List.cons_append] at read ⊢
    rw [nestingLimit, readPath?, skipBlanks_cons (isBlank_of_isKeyChar keyChar), read]
    simp only [Option.bind_eq_bind, Option.bind_some]
    split
    · next more dot => simp [dot] at single
    · rfl
  simp [readDottedKey?, path]

/-! ### Tables -/

theorem find?_eq_none_iff {entries : Entries} {key : String} :
    find? entries key = none ↔ key ∉ entries.map (·.1) := by
  simp only [find?, Option.map_eq_none_iff, List.find?_eq_none, decide_eq_true_eq, List.mem_map,
    not_exists, not_and]

variable {entries : Entries} {name key : String} {value : Toml}

theorem find?_concat (new : name ∉ entries.map (·.1)) (value : Toml) :
    find? (entries ++ [(name, value)]) name = some value := by
  have before : entries.find? (·.1 = name) = none :=
    Option.map_eq_none_iff.mp (find?_eq_none_iff.mpr new)
  simp [find?, List.find?_append, before]

theorem replace_concat (new : name ∉ entries.map (·.1)) (old value : Toml) :
    replace (entries ++ [(name, old)]) name value = entries ++ [(name, value)] := by
  have kept : entries.map (fun e => if e.1 = name then (name, value) else e) = entries := by
    have same : ∀ e ∈ entries, (if e.1 = name then (name, value) else e) = id e :=
      fun e mem => if_neg fun taken => new (List.mem_map.mpr ⟨e, mem, taken⟩)
    rw [List.map_congr_left same, List.map_id]
  simp [replace, kept]

theorem openTable_of_new (new : name ∉ entries.map (·.1)) :
    openTable name entries = some (entries ++ [(name, .table .defined [])]) := by
  rw [openTable, find?_eq_none_iff.mpr new]

/-- A setting is added to the table that was opened last. -/
theorem pair_concat (new : name ∉ entries.map (·.1)) (key : String) (value : Toml) :
    Document.pair ⟨entries ++ [(name, .table .defined [])], [name]⟩ [] key value =
      some ⟨entries ++ [(name, .table .defined [(key, value)])], [name]⟩ := by
  have added : addAt [] key value .defined [] = some [(key, value)] := by
    simp [addAt, alterAt, addNew, find?]
  simp [Document.pair, alterAt, find?_concat new, Standing.enterable, added, replace_concat new]

/-! ### Sections -/

/-- A section with one setting and the text of its value. -/
structure Section where
  name : String
  key : String
  text : List Char
  value : Toml

namespace Section

/-- The lines of a section, an empty one first. -/
def lines (s : Section) : List Char :=
  '\n' :: '[' :: (s.name.toList ++ ']' :: '\n' ::
    (s.key.toList ++ ' ' :: '=' :: ' ' :: (s.text ++ ['\n'])))

def entry (s : Section) : String × Toml := (s.name, .table .defined [(s.key, s.value)])

/-- Whether a section can be written without quotes around its keys, and the text of its value is
read as the value. -/
structure Reads (s : Section) : Prop where
  name : IsBare s.name.toList
  key : IsBare s.key.toList
  value : ReadsValue s.text s.value

end Section

/-- A header with a bare name opens its table. -/
theorem readHeader?_bare {d e : Document} (bare : IsBare name.toList)
    (opened : d.header [] name openTable = some e) (rest : List Char) :
    readHeader? d (name.toList ++ ']' :: '\n' :: rest) = some (e, rest) := by
  have keyRead : readDottedKey? (name.toList ++ ']' :: '\n' :: rest) =
      some (([], name), ']' :: '\n' :: rest) :=
    readDottedKey?_bare bare (by rintro _ ⟨⟩; rfl) nofun
  obtain ⟨c, more, starts, keyChar⟩ := bare.exists_eq_cons
  rw [starts, List.cons_append] at keyRead ⊢
  rw [readHeader?.eq_2, keyRead]
  · simp only [Option.bind_eq_bind, Option.bind_some, endLine?, opened]
  · intro _ same
    exact ne_of_test keyChar rfl (List.cons.inj same).1

/-- A pair with a bare key adds its value. -/
theorem readPair?_bare {d e : Document} {text : List Char} (bare : IsBare key.toList)
    (reads : ReadsValue text value) (added : d.pair [] key value = some e) (rest : List Char) :
    readPair? d (key.toList ++ ' ' :: '=' :: ' ' :: (text ++ '\n' :: rest)) = some (e, rest) := by
  have keyRead : readDottedKey? (key.toList ++ ' ' :: '=' :: ' ' :: (text ++ '\n' :: rest)) =
      some (([], key), '=' :: ' ' :: (text ++ '\n' :: rest)) :=
    readDottedKey?_bare bare (by rintro _ ⟨⟩; rfl) nofun
  have valueStarts : skipBlanks (' ' :: (text ++ '\n' :: rest)) = text ++ '\n' :: rest :=
    reads.starts _
  rw [readPair?, keyRead]
  simp [valueStarts, reads.read, endLine?, added]

theorem skipGap?_bare {key : List Char} (bare : IsBare key) (rest : List Char) :
    skipGap? false (key ++ rest) = some (key ++ rest) := by
  obtain ⟨c, more, rfl, keyChar⟩ := bare.exists_eq_cons
  have noComment : c ≠ '#' := ne_of_test keyChar rfl
  rw [List.cons_append, skipGap?.eq_4]
  · simp [isBlank_of_isKeyChar keyChar, noComment]
  · exact ne_of_test keyChar rfl
  · intro _ same
    exact absurd same (ne_of_test keyChar rfl)

theorem readLines?_header {d e : Document} {cs more : List Char}
    (gap : skipGap? false cs = some ('[' :: more)) (read : readHeader? d more = some (e, rest))
    (fuel : Nat) : readLines? (fuel + 1) d cs = readLines? fuel e rest := by
  simp [readLines?, gap, read]

theorem readLines?_pair {d e : Document} {cs more : List Char}
    (gap : skipGap? false cs = some (c :: more)) (noHeader : c ≠ '[')
    (read : readPair? d (c :: more) = some (e, rest)) (fuel : Nat) :
    readLines? (fuel + 1) d cs = readLines? fuel e rest := by
  rw [readLines?, gap]
  simp only [Option.bind_eq_bind, Option.bind_some]
  split
  · next same => cases same
  · next same => exact absurd (List.cons.inj same).1 noHeader
  · rw [read]
    rfl

/-- Reading a section adds its table. -/
theorem readLines?_lines {s : Section} (reads : s.Reads)
    (new : s.name ∉ entries.map (·.1)) (fuel : Nat) (here : List String) (rest : List Char) :
    readLines? (fuel + 2) ⟨entries, here⟩ (s.lines ++ rest) =
      readLines? fuel ⟨entries ++ [s.entry], [s.name]⟩ rest := by
  have opened : Document.header ⟨entries, here⟩ [] s.name openTable =
      some ⟨entries ++ [(s.name, .table .defined [])], [s.name]⟩ := by
    simp [Document.header, alterAt, openTable_of_new new]
  have added := pair_concat new s.key s.value
  let setting := s.key.toList ++ ' ' :: '=' :: ' ' :: (s.text ++ '\n' :: rest)
  have gap : skipGap? false (s.lines ++ rest) =
      some ('[' :: (s.name.toList ++ ']' :: '\n' :: setting)) := by
    simp [Section.lines, skipGap?, isBlank, setting]
  have header := readHeader?_bare reads.name opened setting
  have settingGap : skipGap? false setting = some setting := skipGap?_bare reads.key _
  have pair : readPair? _ setting = _ := readPair?_bare reads.key reads.value added rest
  obtain ⟨c, more, key, keyChar⟩ := reads.key.exists_eq_cons
  have starts : setting = c :: (more ++ ' ' :: '=' :: ' ' :: (s.text ++ '\n' :: rest)) := by
    simp [setting, key]
  rw [readLines?_header gap header]
  rw [starts] at settingGap pair ⊢
  exact readLines?_pair settingGap (ne_of_test keyChar rfl) pair fuel

/-- A row of sections with names of their own is read as the row of their tables. -/
theorem readLines?_sections {sections : List Section} (reads : ∀ s ∈ sections, s.Reads)
    (distinct : ((entries ++ sections.map Section.entry).map (·.1)).Nodup) {fuel : Nat}
    (enough : 2 * sections.length < fuel) (here : List String) :
    (readLines? fuel ⟨entries, here⟩ (sections.flatMap Section.lines)).map (·.entries) =
      some (entries ++ sections.map Section.entry) := by
  induction sections generalizing entries fuel here with
  | nil =>
      obtain ⟨fuel, rfl⟩ := Nat.exists_eq_add_of_lt enough
      simp [readLines?, skipGap?]
  | cons s sections ih =>
      obtain ⟨first, others⟩ := List.forall_mem_cons.mp reads
      obtain ⟨fuel, rfl⟩ : ∃ more, fuel = more + 2 := ⟨fuel - 2, by simp at enough; omega⟩
      have new : s.name ∉ entries.map (·.1) := by
        intro taken
        rw [List.map_append, List.nodup_append] at distinct
        exact distinct.2.2 _ taken _ List.mem_cons_self rfl
      have rejoined : entries ++ (s :: sections).map Section.entry =
          (entries ++ [s.entry]) ++ sections.map Section.entry := by simp
      rw [rejoined] at distinct ⊢
      rw [List.flatMap_cons, readLines?_lines first new]
      exact ih others distinct (by simp at enough; omega) _

theorem three_mul_length_le_lines (sections : List Section) :
    3 * sections.length ≤ (sections.flatMap Section.lines).length := by
  induction sections with
  | nil => exact Nat.le_refl 0
  | cons s sections ih =>
      simp only [List.flatMap_cons, List.length_append, List.length_cons, Section.lines]
      omega

/-- An empty line counts for nothing. -/
theorem readLines?_newline (fuel : Nat) (d : Document) (cs : List Char) :
    readLines? fuel d ('\n' :: cs) = readLines? fuel d cs := by
  cases fuel with
  | zero => rfl
  | succ fuel => simp [readLines?, skipGap?]

/-- A document of sections with names of their own, of which the first one begins without an empty
line, has their tables. -/
theorem parse?_sections {sections : List Section} (reads : ∀ s ∈ sections, s.Reads)
    (distinct : ((sections.map Section.entry).map (·.1)).Nodup) {text : String}
    (written : '\n' :: text.toList = sections.flatMap Section.lines) :
    parse? text = some (sections.map Section.entry) := by
  have enough : 2 * sections.length < text.toList.length + 1 := by
    have length := three_mul_length_le_lines sections
    rw [← written, List.length_cons] at length
    omega
  have noMark : dropMark text.toList = text.toList := by
    cases sections with
    | nil => cases written
    | cons s sections =>
        rw [List.flatMap_cons, Section.lines] at written
        rw [(List.cons.inj written).2]
        rfl
  have read := @readLines?_sections [] sections reads distinct _ enough []
  rw [← written, readLines?_newline] at read
  rw [parse?, noMark]
  exact read

end MachinePool.Toml
