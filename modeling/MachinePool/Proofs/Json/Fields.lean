import MachinePool.Json.Fields
import Mathlib.Data.List.Nodup

/-!
The fields of a written record are found again.

A record gives its fields under their names whatever they hold
(`fields?_record`). What a field holds is read back if writing and reading fit
together (`ReadsBack`), which passes from values to lists of values, to values
that may be absent, and from the fields of a record to the record
(`ReadsBack.of_fields`).
-/

namespace MachinePool.Json

variable {names : List String} {entries : List (String × Json)}
variable {α : Type} {write : α → Json} {read? : Json → Option α}

/-! ### Fields -/

/-- The members of a written record are picked as they are. -/
theorem pickMembers?_record (named : ∀ entry ∈ entries, entry.1 ∈ names)
    (distinct : (entries.map (·.1)).Nodup) :
    pickMembers? names (entries.map fun m => (some m.1, m.2)) = some entries := by
  induction entries with
  | nil => rfl
  | cons entry entries ih =>
      obtain ⟨key, value⟩ := entry
      obtain ⟨first, others⟩ := List.forall_mem_cons.mp named
      rw [List.map_cons, List.nodup_cons] at distinct
      obtain ⟨fresh, distinct⟩ := distinct
      have once : entries.any (·.1 = key) = false := by
        rw [List.any_eq_false]
        intro entry mem same
        exact fresh (List.mem_map.mpr ⟨entry, mem, of_decide_eq_true same⟩)
      simp [pickMembers?, ih others distinct, first, once]

/-- The fields of a record with the given names. -/
@[simp] theorem fields?_record (keys : entries.map (·.1) = names) (distinct : names.Nodup) :
    fields? names (record entries) = some ⟨false, entries⟩ := by
  have named : ∀ entry ∈ entries, entry.1 ∈ names := fun entry mem => by
    rw [← keys]
    exact List.mem_map_of_mem mem
  have picked := pickMembers?_record named (keys ▸ distinct)
  exact congrArg (Option.map fun picked => (⟨false, picked⟩ : Fields)) picked

@[simp] theorem Fields.find?_cons (byPosition : Bool) (key : String) (value : Json)
    (entries : List (String × Json)) (name : String) :
    Fields.find? ⟨byPosition, (key, value) :: entries⟩ name =
      if key = name then some value else Fields.find? ⟨byPosition, entries⟩ name := by
  by_cases same : key = name <;> simp [Fields.find?, same]

/-! ### Values -/

/-- What is written is read back, and no value is written as null. -/
structure ReadsBack (write : α → Json) (read? : Json → Option α) : Prop where
  readBack : ∀ a, read? (write a) = some a
  ne_null : ∀ a, write a ≠ .null

/-- Lists are read back if their items are. -/
theorem ReadsBack.list (back : ReadsBack write read?) : ReadsBack (list write) (list? read?) where
  readBack items := by
    change (items.map write).mapM read? = some items
    induction items with
    | nil => rfl
    | cons item items ih => simp [back.readBack item, ih]
  ne_null _ := nofun

/-- An optional value is read back if the value is. -/
theorem ReadsBack.nullable (back : ReadsBack write read?) (o : Option α) :
    nullable? read? (optional write o) = some o := by
  cases o with
  | none => rfl
  | some a =>
      rw [optional, nullable?.eq_2 _ _ (back.ne_null a), back.readBack]
      rfl

/-- A record is read back if its fields are. -/
theorem ReadsBack.of_fields {entries : α → List (String × Json)} {build : Fields → Option α}
    (keys : ∀ a, (entries a).map (·.1) = names) (distinct : names.Nodup)
    (built : ∀ a, build ⟨false, entries a⟩ = some a) :
    ReadsBack (fun a => record (entries a)) (fun j => (fields? names j).bind build) where
  readBack a := by
    rw [fields?_record (keys a) distinct, Option.bind_some, built]
  ne_null _ := nofun

theorem readsBack_text : ReadsBack text text? where
  readBack _ := rfl
  ne_null _ := nofun

theorem readsBack_bool : ReadsBack .bool bool? where
  readBack _ := rfl
  ne_null _ := nofun

theorem readsBack_word : ReadsBack word word? where
  readBack n := by
    have bound : n.toNat < UInt64.size := n.toNat_lt
    simp [word, word?, bound]
  ne_null _ := nofun

end MachinePool.Json
