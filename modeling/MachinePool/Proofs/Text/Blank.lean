import MachinePool.Text.Blank

/-!
The words of a text.

The words are said without a scan (`IsWords`): blanks are skipped, and a word
reaches as far as there are characters that are not blank. Every text has one
row of words, the one that cutting it at blanks gives (`isWords_iff`).
-/

namespace MachinePool.Text

variable {c : Char} {cs word rest : List Char} {ws : List (List Char)}

/-- The words of a text are its longest runs of characters that are not blank. -/
inductive IsWords : List Char → List (List Char) → Prop where
  | nil : IsWords [] []
  | blank {c : Char} {rest : List Char} {ws : List (List Char)} :
      isBlank c = true → IsWords rest ws → IsWords (c :: rest) ws
  | word {word rest : List Char} {ws : List (List Char)} : word ≠ [] →
      (∀ c ∈ word, isBlank c = false) → (∀ c ∈ rest.head?, isBlank c = true) → IsWords rest ws →
      IsWords (word ++ rest) (word :: ws)

/-- A word and a blank go before other words. -/
theorem IsWords.cons_space (nonempty : word ≠ []) (solid : ∀ c ∈ word, isBlank c = false)
    (others : IsWords rest ws) : IsWords (word ++ ' ' :: rest) (word :: ws) := by
  refine .word nonempty solid ?_ (.blank (by decide) others)
  rintro c ⟨⟩
  decide

theorem IsWords.single (nonempty : word ≠ []) (solid : ∀ c ∈ word, isBlank c = false) :
    IsWords word [word] := by
  have alone : IsWords (word ++ []) [word] := .word nonempty solid nofun .nil
  rwa [List.append_nil] at alone

theorem IsWords.ne_nil (isWords : IsWords cs ws) : ∀ word ∈ ws, word ≠ [] := by
  induction isWords with
  | nil => exact nofun
  | blank _ _ ih => exact ih
  | word nonempty _ _ _ ih => exact List.forall_mem_cons.mpr ⟨nonempty, ih⟩

/-! ### Cutting at blanks -/

theorem words_nil : words [] = [] := rfl

theorem words_cons_blank (blank : isBlank c = true) : words (c :: rest) = words rest := by
  simp [words, splitWhere, blank]

theorem words_of_solid (nonempty : word ≠ []) (solid : ∀ c ∈ word, isBlank c = false) :
    words word = [word] := by
  simp [words, splitWhere_of_forall_not solid, nonempty]

/-- The first word reaches to the first blank. -/
theorem words_append_blank (nonempty : word ≠ []) (solid : ∀ c ∈ word, isBlank c = false)
    (blank : isBlank c = true) : words (word ++ c :: rest) = word :: words rest := by
  simp [words, splitWhere_append_cons blank rest solid, nonempty]

/-- The words of a text are the ones it is divided into. -/
theorem words_eq_of_isWords (isWords : IsWords cs ws) : words cs = ws := by
  induction isWords with
  | nil => rfl
  | blank isBlank _ ih => rw [words_cons_blank isBlank, ih]
  | @word word rest ws nonempty solid boundary _ ih =>
      cases rest with
      | nil =>
          rw [List.append_nil, words_of_solid nonempty solid, ← ih, words_nil]
      | cons c rest =>
          have blank := boundary c rfl
          rw [words_append_blank nonempty solid blank, ← ih, words_cons_blank blank]

/-- Every text has words. -/
theorem exists_isWords (cs : List Char) : ∃ ws, IsWords cs ws := by
  induction cs with
  | nil => exact ⟨[], .nil⟩
  | cons c rest ih =>
      obtain ⟨ws, isWords⟩ := ih
      cases blank : isBlank c with
      | true => exact ⟨ws, .blank blank isWords⟩
      | false =>
          have alone : ∀ d ∈ [c], isBlank d = false := by simp [blank]
          cases isWords with
          | nil => exact ⟨[[c]], @IsWords.word [c] [] [] (by simp) alone nofun .nil⟩
          | blank next others =>
              exact ⟨[c] :: ws,
                .word (List.cons_ne_nil _ _) alone (by simp [next]) (.blank next others)⟩
          | @word word rest ws _ solid boundary others =>
              exact ⟨(c :: word) :: ws, .word (List.cons_ne_nil _ _)
                (List.forall_mem_cons.mpr ⟨blank, solid⟩) boundary others⟩

/-- The words of a text are found by cutting it at blanks. -/
theorem isWords_iff : IsWords cs ws ↔ words cs = ws := by
  constructor
  · exact words_eq_of_isWords
  · rintro rfl
    obtain ⟨ws, isWords⟩ := exists_isWords cs
    rw [words_eq_of_isWords isWords]
    exact isWords

end MachinePool.Text
