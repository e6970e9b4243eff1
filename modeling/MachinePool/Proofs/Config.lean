import MachinePool.Config
import MachinePool.Proofs.Toml.Document

/-!
The text of a configuration is read back.

The text is a document of three sections with one setting each, so what is read are
their three tables, whatever characters the path of the store and the filter of the
log have. Only the number of attempts may come back as another one: a race is run
at least once. Every configuration that is read from a text has such a number, and
so it is read back as it is (`written_reads_back`).
-/

namespace MachinePool.Config

open Text Toml

variable {c : Config}

/-! ### The sections of the text -/

def sections (c : Config) : List Section :=
  [⟨"store", "path", writeText c.storePath, .text c.storePath⟩,
    ⟨"allocation", "claim_attempts", decimalDigits c.claimAttempts.toNat,
      .integer c.claimAttempts.toNat⟩,
    ⟨"log", "filter", writeText c.logFilter, .text c.logFilter⟩]

theorem reads_of_mem_sections {s : Section} (mem : s ∈ c.sections) : s.Reads := by
  have bare : ∀ key ∈ ["store", "path", "allocation", "claim_attempts", "log", "filter"],
      IsBare key.toList := by decide
  have fits : c.claimAttempts.toNat < 0x8000000000000000 :=
    Nat.lt_trans c.claimAttempts.toNat_lt (by decide)
  have number := readsValue_decimalDigits fits
  simp only [sections, List.mem_cons, List.not_mem_nil, or_false] at mem
  rcases mem with rfl | rfl | rfl
  · exact ⟨bare _ (by simp), bare _ (by simp), readsValue_writeText c.storePath⟩
  · exact ⟨bare _ (by simp), bare _ (by simp), number⟩
  · exact ⟨bare _ (by simp), bare _ (by simp), readsValue_writeText c.logFilter⟩

/-- The text of a configuration is the row of its sections. -/
theorem toToml_eq_sections (c : Config) :
    '\n' :: c.toToml.toList = c.sections.flatMap Section.lines := by
  have number : (toString c.claimAttempts.toNat).toList = decimalDigits c.claimAttempts.toNat := by
    rw [Nat.toString_eq_repr, Nat.repr, String.toList_ofList, decimalDigits]
  unfold toToml sections
  rw [← number]
  generalize toString c.claimAttempts.toNat = shown
  simp [Section.lines]

/-- The written text is read as a document with one table for each section. -/
theorem parse?_toToml (c : Config) : parse? c.toToml = some (c.sections.map Section.entry) := by
  have distinct : ((c.sections.map Section.entry).map (·.1)).Nodup := by
    simp [sections, Section.entry]
  exact parse?_sections (fun _ => reads_of_mem_sections) distinct (toToml_eq_sections c)

/-! ### Reading the sections -/

theorem setting?_of_find? {α : Type} {document settings : Entries} {section_ name : String}
    {standing : Standing} {value : Toml} (inDocument : Toml.find? document section_ =
      some (.table standing settings)) (inSection : Toml.find? settings name = some value)
    (default : α) (read : Toml → Option α) :
    setting? document section_ name default read = read value := by
  simp [setting?, inDocument, settings?, inSection]

theorem attempts?_toNat (attempts : UInt32) :
    attempts? (.integer attempts.toNat) = some (max 1 attempts) := by
  have fits : 0 ≤ (attempts.toNat : Int) ∧ (attempts.toNat : Int) < UInt32.size :=
    ⟨Int.natCast_nonneg _, Int.ofNat_lt.mpr attempts.toNat_lt⟩
  rw [attempts?, if_pos fits, Int.toNat_natCast, UInt32.ofNat_toNat]

/-- The text of a configuration is read as the configuration, with one attempt at least. -/
theorem ofToml?_toToml (c : Config) :
    ofToml? c.toToml = some { c with claimAttempts := max 1 c.claimAttempts } := by
  have path : setting? (c.sections.map Section.entry) "store" "path" ({} : Config).storePath text? =
      some c.storePath := (setting?_of_find? rfl rfl _ _).trans rfl
  have attempts : setting? (c.sections.map Section.entry) "allocation" "claim_attempts"
      ({} : Config).claimAttempts attempts? = some (max 1 c.claimAttempts) :=
    (setting?_of_find? rfl rfl _ _).trans (attempts?_toNat c.claimAttempts)
  have filter : setting? (c.sections.map Section.entry) "log" "filter" ({} : Config).logFilter
      text? = some c.logFilter := (setting?_of_find? rfl rfl _ _).trans rfl
  unfold ofToml?
  simp only [Option.bind_eq_bind]
  rw [parse?_toToml, Option.bind_some, path, Option.bind_some, attempts, Option.bind_some, filter,
    Option.bind_some]

/-! ### What is read -/

theorem eq_or_read_of_setting? {α : Type} {document : Entries} {section_ name : String}
    {default found : α} {read : Toml → Option α}
    (setting : setting? document section_ name default read = some found) :
    found = default ∨ ∃ value, read value = some found := by
  unfold setting? at setting
  split at setting
  · cases setting
    exact .inl rfl
  · obtain ⟨settings, -, setting⟩ := Option.bind_eq_some_iff.mp setting
    split at setting
    · cases setting
      exact .inl rfl
    · exact .inr ⟨_, setting⟩

theorem max_one_eq (attempts : UInt32) :
    max 1 attempts = if 1 ≤ attempts then attempts else 1 := rfl

theorem one_le_of_attempts? {value : Toml} {attempts : UInt32}
    (read : attempts? value = some attempts) : 1 ≤ attempts := by
  unfold attempts? at read
  split at read
  · split at read
    · cases read
      rw [max_one_eq]
      split
      · assumption
      · decide
    · cases read
  · cases read

/-- A configuration that was read has at least one attempt. -/
theorem one_le_claimAttempts {text : String} (read : ofToml? text = some c) :
    1 ≤ c.claimAttempts := by
  obtain ⟨document, -, read⟩ := Option.bind_eq_some_iff.mp read
  obtain ⟨path, -, read⟩ := Option.bind_eq_some_iff.mp read
  obtain ⟨attempts, number, read⟩ := Option.bind_eq_some_iff.mp read
  obtain ⟨filter, -, read⟩ := Option.bind_eq_some_iff.mp read
  cases read
  change 1 ≤ attempts
  rcases eq_or_read_of_setting? number with rfl | ⟨value, given⟩
  · decide
  · exact one_le_of_attempts? given

/-- Every configuration is read back from its text, with one attempt at least, and a configuration
that was read from some text is read back as it is. -/
theorem written_reads_back :
    (∀ c : Config, ofToml? c.toToml = some { c with claimAttempts := max 1 c.claimAttempts }) ∧
    ∀ (text : String) (c : Config), ofToml? text = some c → ofToml? c.toToml = some c := by
  refine ⟨ofToml?_toToml, ?_⟩
  intro text c read
  have attempts : max 1 c.claimAttempts = c.claimAttempts := by
    rw [max_one_eq, if_pos (one_le_claimAttempts read)]
  rw [ofToml?_toToml, attempts]

/-- A text in other styles than those that are written, without an attempt. -/
def tangled : String :=
  "store = \x7b path = \"a\\tb\\u0001\\r\\\"'\" \x7d\nallocation.claim_attempts = 0x0 # none\n" ++
    "[log]\nfilter = \"\"\"\n\n''\"\"\\\"'\"\"\"\"\n"

/-- A text in other styles is read, its attempts are raised to one, and it is written and read alike
from then on. -/
theorem tangled_read_back :
    let read : Config :=
      { storePath := "a\tb\x01\r\"'", claimAttempts := 1, logFilter := "\n''\"\"\"'\"" }
    ofToml? tangled = some read ∧ ofToml? read.toToml = some read :=
  ⟨by decide +kernel, written_reads_back.2 tangled _ (by decide +kernel)⟩

end MachinePool.Config
