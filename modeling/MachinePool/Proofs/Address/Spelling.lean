import MachinePool.Address
import MachinePool.Proofs.Text.Digits
import Mathlib.Data.List.Forall2

/-!
The spellings of an address.

Four octets have one spelling. A group of sixteen bits is spelled by its four
hexadecimal digits, of either case and less some leading zeros (`SpellsGroup`). A
row of groups is spelled group by group, its last two groups possibly as four
octets (`SpellsRow`), and eight groups are spelled as a row, or as two rows around
the `::` that stands for some zero groups between them (`Spells`).

* `ofText?_eq_some_iff`: a text is read as an address exactly when it spells it.
-/

namespace MachinePool.Address

open Text

variable {cs field : List Char} {fields : List (List Char)} {g : UInt16} {gs : List UInt16}
variable {a b c d : UInt8}

/-! ### Octets -/

/-- An octet has one spelling: its decimal numeral. -/
theorem octet?_eq_some_iff : octet? cs = some a ↔ cs = decimalDigits a.toNat := by
  have small : a.toNat < 256 := a.toNat_lt
  constructor
  · intro read
    unfold octet? at read
    split at read
    · next shape =>
        obtain ⟨n, value, octet⟩ := Option.bind_eq_some_iff.mp read
        have bound : n < 256 := by
          by_contra large
          rw [if_neg large] at octet
          cases octet
        rw [if_pos bound, Option.some.injEq] at octet
        subst octet
        rw [UInt8.toNat_ofNat_of_lt' bound]
        exact eq_decimalDigits_of_readDigits? value shape.2
    · cases read
  · rintro rfl
    have short : (decimalDigits a.toNat).length ≤ 3 :=
      (Nat.length_toDigits_le_iff (by decide) (by decide)).mpr (by omega)
    have noZeros : (decimalDigits a.toNat).head? = some '0' →
        (decimalDigits a.toNat).length = 1 := by
      intro zero
      have zero : a.toNat = 0 := by
        by_contra positive
        exact head?_decimalDigits_ne (Nat.pos_of_ne_zero positive) zero
      rw [zero]
      rfl
    rw [octet?, if_pos ⟨short, noZeros⟩, readDigits?_decimalDigits, Option.bind_some, if_pos small,
      UInt8.ofNat_toNat]

theorem octetsText_eq_intercalate (a b c d : UInt8) :
    octetsText a b c d = ['.'].intercalate [decimalDigits a.toNat, decimalDigits b.toNat,
      decimalDigits c.toNat, decimalDigits d.toNat] := by
  simp [octetsText, List.intercalate]

theorem separator_notMem_decimalDigits {separator : Char} (noDigit : separator.isDigit = false)
    (n : Nat) : separator ∉ decimalDigits n := fun mem => by
  rw [isDigit_of_mem_decimalDigits mem] at noDigit
  cases noDigit

/-- Four octets have one spelling. -/
theorem octets?_eq_some_iff : octets? cs = some (a, b, c, d) ↔ cs = octetsText a b c d := by
  constructor
  · intro read
    unfold octets? at read
    split at read
    · next w x y z fields =>
        simp only [Option.bind_eq_bind, Option.bind_eq_some_iff, Option.some.injEq, Prod.mk.injEq,
          octet?_eq_some_iff] at read
        obtain ⟨_, rfl, _, rfl, _, rfl, _, rfl, rfl, rfl, rfl, rfl⟩ := read
        rw [octetsText_eq_intercalate, ← fields, intercalate_split]
    · cases read
  · rintro rfl
    have free : ∀ n, '.' ∉ decimalDigits n := separator_notMem_decimalDigits rfl
    have read : ∀ x : UInt8, octet? (decimalDigits x.toNat) = some x := fun x =>
      octet?_eq_some_iff.mpr rfl
    rw [octets?, octetsText_eq_intercalate,
      split_intercalate (List.cons_ne_nil _ _) (by simp [free])]
    simp [read]

/-- Four octets hold no colon. -/
theorem colon_notMem_octetsText (a b c d : UInt8) : ':' ∉ octetsText a b c d := by
  have free : ∀ n, ':' ∉ decimalDigits n := separator_notMem_decimalDigits rfl
  simp [octetsText, free]

/-! ### Groups -/

/-- A group is spelled by its four digits, of either case, less some leading zeros. -/
structure SpellsGroup (g : UInt16) (cs : List Char) : Prop where
  nonempty : cs ≠ []
  digits : ∃ zeros, List.replicate zeros '0' ++ cs.map Char.toLower =
    fourHexDigits hexDigit g.toNat

theorem map_toLower_padded (zeros : Nat) (cs : List Char) :
    (List.replicate zeros '0' ++ cs).map Char.toLower =
      List.replicate zeros '0' ++ cs.map Char.toLower := by
  rw [List.map_append, List.map_replicate]
  rfl

/-- A text is read as a group exactly when it spells it. -/
theorem group?_eq_some_iff : group? cs = some g ↔ SpellsGroup g cs := by
  constructor
  · intro read
    unfold group? at read
    split at read
    · next short =>
        obtain ⟨n, value, rfl⟩ := Option.map_eq_some_iff.mp read
        have nonempty : cs ≠ [] := by
          rintro rfl
          cases value
        have four : (List.replicate (4 - cs.length) '0' ++ cs).length = 4 := by
          simp
          omega
        rw [← readDigits?_replicate_zero_append (4 - cs.length) nonempty,
          readDigits?_sixteen_iff four, map_toLower_padded] at value
        obtain ⟨small, digits⟩ := value
        refine ⟨nonempty, 4 - cs.length, ?_⟩
        rw [UInt16.toNat_ofNat_of_lt' small]
        exact digits
    · cases read
  · rintro ⟨nonempty, zeros, digits⟩
    have four : (List.replicate zeros '0' ++ cs).length = 4 := by
      have lengths := congrArg List.length digits
      simpa [fourHexDigits] using lengths
    have short : cs.length ≤ 4 := by
      simp at four
      omega
    have value : readDigits? 16 cs = some g.toNat := by
      rw [← readDigits?_replicate_zero_append zeros nonempty, readDigits?_sixteen_iff four,
        map_toLower_padded]
      exact ⟨g.toNat_lt, digits⟩
    rw [group?, if_pos short, value, Option.map_some, UInt16.ofNat_toNat]

/-- No digit is a separator of a text of groups. -/
theorem SpellsGroup.free (spelled : SpellsGroup g cs) : ':' ∉ cs ∧ '.' ∉ cs := by
  obtain ⟨-, zeros, digits⟩ := spelled
  have absent : ∀ c ∈ cs, c.toLower ∈ fourHexDigits hexDigit g.toNat := fun c mem => by
    rw [← digits]
    exact List.mem_append_right _ (List.mem_map_of_mem mem)
  have bound : ∀ k, k % 16 < 16 := fun k => Nat.mod_lt k (by decide)
  have separates : ∀ k < 16, hexDigit k ≠ ':' ∧ hexDigit k ≠ '.' := by decide
  constructor
  · intro mem
    have digit : ':' ∈ fourHexDigits hexDigit g.toNat := absent ':' mem
    simp [fourHexDigits, (separates _ (bound _)).1.symm] at digit
  · intro mem
    have digit : '.' ∈ fourHexDigits hexDigit g.toNat := absent '.' mem
    simp [fourHexDigits, (separates _ (bound _)).2.symm] at digit

/-! ### Rows of groups -/

/-- A row of groups is spelled group by group; its last two groups may be four octets. -/
inductive SpellsRow : List UInt16 → List (List Char) → Prop
  | nil : SpellsRow [] []
  | octets (a b c d : UInt8) : SpellsRow [pairGroup a b, pairGroup c d] [octetsText a b c d]
  | cons {g : UInt16} {gs : List UInt16} {field : List Char} {fields : List (List Char)} :
      SpellsGroup g field → SpellsRow gs fields → SpellsRow (g :: gs) (field :: fields)

theorem SpellsRow.of_forall₂ (spelled : List.Forall₂ SpellsGroup gs fields) :
    SpellsRow gs fields := by
  induction spelled with
  | nil => exact .nil
  | cons first _ ih => exact .cons first ih

/-- No spelling of a group is one of four octets. -/
theorem octets?_of_spellsGroup (spelled : SpellsGroup g cs) : octets? cs = none := by
  rw [Option.eq_none_iff_forall_ne_some]
  rintro ⟨a, b, c, d⟩ read
  have dotted : '.' ∈ cs := by
    rw [octets?_eq_some_iff.mp read]
    simp [octetsText]
  exact spelled.free.2 dotted

/-- Fields are read as a row of groups exactly when they spell it. -/
theorem mixedGroups?_eq_some_iff : mixedGroups? fields = some gs ↔ SpellsRow gs fields := by
  constructor
  · intro read
    induction fields using mixedGroups?.induct generalizing gs with
    | case1 =>
        cases read
        exact .nil
    | case2 last a b c d octets =>
        rw [mixedGroups?, octets] at read
        cases read
        rw [octets?_eq_some_iff.mp octets]
        exact .octets a b c d
    | case3 last octets =>
        rw [mixedGroups?, octets] at read
        obtain ⟨g, group, rfl⟩ := Option.map_eq_some_iff.mp read
        exact .cons (group?_eq_some_iff.mp group) .nil
    | case4 field rest several ih =>
        rw [mixedGroups?.eq_3 _ _ several] at read
        simp only [Option.bind_eq_bind, Option.bind_eq_some_iff, Option.some.injEq] at read
        obtain ⟨g, group, others, row, rfl⟩ := read
        exact .cons (group?_eq_some_iff.mp group) (ih row)
  · intro spelled
    induction spelled with
    | nil => rfl
    | octets a b c d => rw [mixedGroups?, octets?_eq_some_iff.mpr rfl]
    | @cons g gs field fields first row ih =>
        have group : group? field = some g := group?_eq_some_iff.mpr first
        cases row with
        | nil => rw [mixedGroups?, octets?_of_spellsGroup first, group, Option.map_some]
        | octets | cons =>
            rw [mixedGroups?.eq_3 _ _ (List.cons_ne_nil _ _), group, ih]
            rfl

theorem mapM_group?_eq_some_iff :
    fields.mapM group? = some gs ↔ List.Forall₂ SpellsGroup gs fields := by
  induction fields generalizing gs with
  | nil => simp [List.forall₂_nil_right_iff, eq_comm]
  | cons field fields ih =>
      simp only [List.mapM_cons, Option.bind_eq_bind, Option.bind_eq_some_iff, Option.pure_def,
        Option.some.injEq, group?_eq_some_iff, ih]
      constructor
      · rintro ⟨g, first, gs, others, rfl⟩
        exact .cons first others
      · rintro (_ | ⟨first, others⟩)
        exact ⟨_, first, _, others, rfl⟩

/-- The fields of a row are texts between colons. -/
theorem SpellsRow.free (spelled : SpellsRow gs fields) :
    ∀ field ∈ fields, field ≠ [] ∧ ':' ∉ field := by
  induction spelled with
  | nil => simp
  | octets a b c d =>
      have nonempty : octetsText a b c d ≠ [] := by simp [octetsText]
      exact List.forall_mem_singleton.mpr ⟨nonempty, colon_notMem_octetsText a b c d⟩
  | cons first _ ih => exact List.forall_mem_cons.mpr ⟨⟨first.nonempty, first.free.1⟩, ih⟩

theorem SpellsRow.length_le (spelled : SpellsRow gs fields) : gs.length ≤ fields.length + 1 := by
  induction spelled with
  | nil => simp
  | octets a b c d => simp
  | cons _ _ ih => simpa using ih

theorem intercalate_groupFields (cs : List Char) : [':'].intercalate (groupFields cs) = cs := by
  unfold groupFields
  split
  · next empty => rw [empty]; rfl
  · exact intercalate_split ':' cs

/-- Fields without colons are found again between colons. -/
theorem groupFields_intercalate (free : ∀ field ∈ fields, field ≠ [] ∧ ':' ∉ field) :
    groupFields ([':'].intercalate fields) = fields := by
  cases fields with
  | nil => rfl
  | cons field rest =>
      have nonempty : [':'].intercalate (field :: rest) ≠ [] := by
        cases rest <;> simp [List.intercalate, (free field List.mem_cons_self).1]
      rw [groupFields, if_neg nonempty]
      exact split_intercalate (List.cons_ne_nil _ _) fun field mem => (free field mem).2

/-! ### The gap -/

/-- What is cut at a gap is put together again by it. -/
theorem eq_of_splitGap {before after : List Char} (gap : splitGap cs = some (before, after)) :
    cs = before ++ ':' :: ':' :: after := by
  induction cs using splitGap.induct generalizing before with
  | case1 => cases gap
  | case2 rest =>
      cases gap
      rfl
  | case3 c rest noGap ih =>
      rw [splitGap.eq_3 _ _ noGap] at gap
      obtain ⟨⟨front, back⟩, found, same⟩ := Option.map_eq_some_iff.mp gap
      cases same
      rw [ih found]
      rfl

theorem splitGap_append (free : ':' ∉ field) (rest : List Char) :
    splitGap (field ++ rest) =
      (splitGap rest).map fun (before, after) => (field ++ before, after) := by
  induction field with
  | nil => simp
  | cons c field ih =>
      obtain ⟨other, free⟩ := not_or.mp (mt List.mem_cons.mpr free)
      have tail := ih free
      rw [List.cons_append, splitGap, tail]
      · cases splitGap rest <;> rfl
      · rintro _ rfl
        exact absurd rfl other

theorem splitGap_colon {c : Char} (other : c ≠ ':') (rest : List Char) :
    splitGap (':' :: c :: rest) =
      (splitGap (c :: rest)).map fun (before, after) => (':' :: before, after) := by
  rw [splitGap]
  rintro _ - same
  exact other (List.cons.inj same).1

/-- A row and what follows it have no gap before the end of the row. -/
theorem splitGap_intercalate_append (free : ∀ field ∈ fields, field ≠ [] ∧ ':' ∉ field)
    (rest : List Char) : splitGap ([':'].intercalate fields ++ rest) =
      (splitGap rest).map fun (before, after) => ([':'].intercalate fields ++ before, after) := by
  induction fields with
  | nil => simp [List.intercalate]
  | cons field fields ih =>
      obtain ⟨⟨-, first⟩, others⟩ := List.forall_mem_cons.mp free
      cases fields with
      | nil => simpa [List.intercalate] using splitGap_append first rest
      | cons next fields =>
          obtain ⟨c, more, start, other⟩ : ∃ c more,
              [':'].intercalate (next :: fields) = c :: more ∧ c ≠ ':' := by
            obtain ⟨⟨nonempty, free⟩, -⟩ := List.forall_mem_cons.mp others
            obtain ⟨c, next, rfl⟩ := List.exists_cons_of_ne_nil nonempty
            have other : c ≠ ':' := fun same => free (same ▸ List.mem_cons_self)
            cases fields with
            | nil => exact ⟨c, next, by simp [List.intercalate], other⟩
            | cons => exact ⟨c, _, by rw [List.intercalate_cons_cons]; rfl, other⟩
          rw [List.intercalate_cons_cons, List.append_assoc, List.append_assoc,
            splitGap_append first, List.singleton_append, start, List.cons_append,
            splitGap_colon other, ← List.cons_append, ← start, ih others]
          cases splitGap rest <;> simp

/-! ### Addresses -/

/-- The spellings of an address: four octets, or eight groups in a row or in two rows around the
`::` that stands for the zero groups between them. -/
inductive Spells : Address → List Char → Prop
  | octets (a b c d : UInt8) : Spells (.v4 a b c d) (octetsText a b c d)
  | full {gs : List UInt16} {fields : List (List Char)} (eight : gs.length = 8) :
      SpellsRow gs fields → Spells (.v6 ⟨gs, eight⟩) ([':'].intercalate fields)
  | gap {front back : List UInt16} {frontFields backFields : List (List Char)} {zeros : Nat}
      (positive : 0 < zeros) (eight : (front ++ List.replicate zeros 0 ++ back).length = 8) :
      List.Forall₂ SpellsGroup front frontFields → SpellsRow back backFields →
      Spells (.v6 ⟨_, eight⟩)
        ([':'].intercalate frontFields ++ ':' :: ':' :: [':'].intercalate backFields)

theorem ofGroups?_eq_some_iff {address : Address} :
    ofGroups? gs = some address ↔ ∃ eight : gs.length = 8, address = .v6 ⟨gs, eight⟩ := by
  unfold ofGroups?
  split
  · next eight => simp [eight, eq_comm]
  · next other => simp [other]

/-- Eight groups spelled in one row are read. -/
theorem readV6?_of_spellsRow (eight : gs.length = 8) (row : SpellsRow gs fields) :
    readV6? ([':'].intercalate fields) = some (.v6 ⟨gs, eight⟩) := by
  have noGap : splitGap ([':'].intercalate fields) = none := by
    simpa [splitGap] using splitGap_intercalate_append row.free []
  rw [readV6?, noGap]
  simp only [groupFields_intercalate row.free, mixedGroups?_eq_some_iff.mpr row, Option.bind_some]
  exact ofGroups?_eq_some_iff.mpr ⟨eight, rfl⟩

/-- Eight groups spelled in two rows around a gap are read. -/
theorem readV6?_of_gap {front back : List UInt16} {frontFields backFields : List (List Char)}
    {zeros : Nat} (positive : 0 < zeros)
    (eight : (front ++ List.replicate zeros 0 ++ back).length = 8)
    (before : List.Forall₂ SpellsGroup front frontFields) (after : SpellsRow back backFields) :
    readV6? ([':'].intercalate frontFields ++ ':' :: ':' :: [':'].intercalate backFields) =
      some (.v6 ⟨_, eight⟩) := by
  have free := (SpellsRow.of_forall₂ before).free
  have lengths : front.length + (zeros + back.length) = 8 := by simpa using eight
  have few : front.length + back.length ≤ 7 := by omega
  have rest : 8 - (front.length + back.length) = zeros := by omega
  rw [readV6?, splitGap_intercalate_append free]
  simp only [splitGap, Option.map_some, List.append_nil, groupFields_intercalate free,
    groupFields_intercalate after.free, mapM_group?_eq_some_iff.mpr before,
    mixedGroups?_eq_some_iff.mpr after, Option.bind_eq_bind, Option.bind_some, if_pos few, rest]
  exact ofGroups?_eq_some_iff.mpr ⟨eight, rfl⟩

/-- Only spellings are read as eight groups. -/
theorem spells_of_readV6? {address : Address} (read : readV6? cs = some address) :
    Spells address cs := by
  unfold readV6? at read
  split at read
  · obtain ⟨gs, row, groups⟩ := Option.bind_eq_some_iff.mp read
    obtain ⟨eight, rfl⟩ := ofGroups?_eq_some_iff.mp groups
    rw [← intercalate_groupFields cs]
    exact .full eight (mixedGroups?_eq_some_iff.mp row)
  · next before after gap =>
      simp only [Option.bind_eq_bind, Option.bind_eq_some_iff] at read
      obtain ⟨front, first, back, second, groups⟩ := read
      split at groups
      · next few =>
          obtain ⟨eight, rfl⟩ := ofGroups?_eq_some_iff.mp groups
          rw [eq_of_splitGap gap, ← intercalate_groupFields before, ← intercalate_groupFields after]
          exact .gap (by omega) eight (mapM_group?_eq_some_iff.mp first)
            (mixedGroups?_eq_some_iff.mp second)
      · cases groups

theorem octets?_of_colon (colon : ':' ∈ cs) : octets? cs = none := by
  rw [Option.eq_none_iff_forall_ne_some]
  rintro ⟨a, b, c, d⟩ read
  rw [octets?_eq_some_iff.mp read] at colon
  exact colon_notMem_octetsText a b c d colon

/-- Eight groups take at least one colon. -/
theorem colon_mem_of_spellsRow (eight : gs.length = 8) (row : SpellsRow gs fields) :
    ':' ∈ [':'].intercalate fields := by
  have several := row.length_le
  match fields, several with
  | [], several | [_], several => simp at several; omega
  | first :: second :: rest, _ => simp [List.intercalate_cons_cons]

/-- A text is read as an address exactly when it is one of its spellings. -/
theorem ofText?_eq_some_iff {t : String} {address : Address} :
    ofText? t = some address ↔ Spells address t.toList := by
  unfold ofText?
  generalize t.toList = cs
  constructor
  · intro read
    split at read
    · next a b c d octets =>
        cases read
        rw [octets?_eq_some_iff.mp octets]
        exact .octets a b c d
    · exact spells_of_readV6? read
  · intro spelled
    cases spelled with
    | octets a b c d => rw [octets?_eq_some_iff.mpr rfl]
    | full eight row =>
        rw [octets?_of_colon (colon_mem_of_spellsRow eight row)]
        exact readV6?_of_spellsRow eight row
    | gap positive eight before after =>
        rw [octets?_of_colon (by simp)]
        exact readV6?_of_gap positive eight before after

end MachinePool.Address
