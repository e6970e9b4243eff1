import MachinePool.Table
import Mathlib.Data.List.Induction
import Mathlib.Data.List.Nodup
import Mathlib.Data.List.Perm.Basic

/-!
Tables that are written several times.

A later write under a key makes an earlier one void (`insert_insert`), and a table
made of pairs with distinct keys holds exactly these pairs
(`perm_entries_ofList`), in the order of the keys whatever order they came in
(`ofList_perm`). A write under a key leaves the other values as they are
(`perm_values_erase`, `erase_insert`). A table whose values are changed key by key
is `mapKeyed`.
-/

namespace MachinePool.Table

variable {α β : Type} {key : String} {value : α} {pairs : List (String × α)}

/-- Of two writes under one key the later one stays. -/
@[simp] theorem insert_insert (t : Table α) (key : String) (first second : α) :
    (t.insert key first).insert key second = t.insert key second := by
  refine ext_get? fun asked => ?_
  by_cases same : asked = key
  · simp [same]
  · simp [get?_insert, same]

theorem ofList_concat (pairs : List (String × α)) (key : String) (value : α) :
    ofList (pairs ++ [(key, value)]) = (ofList pairs).insert key value := by
  simp [ofList]

/-- A table of pairs with distinct keys finds exactly the pairs. -/
theorem get?_ofList_eq_some_iff (distinct : (pairs.map (·.1)).Nodup) :
    (ofList pairs).get? key = some value ↔ (key, value) ∈ pairs := by
  induction pairs using List.reverseRecOn with
  | nil => simp [ofList]
  | append_singleton pairs last ih =>
      rw [List.map_append, List.map_singleton, List.nodup_append] at distinct
      obtain ⟨distinct, -, fresh⟩ := distinct
      rw [ofList_concat, get?_insert]
      by_cases same : key = last.1
      · subst same
        have absent : (last.1, value) ∉ pairs := fun mem =>
          fresh last.1 (List.mem_map.mpr ⟨_, mem, rfl⟩) last.1 (List.mem_singleton_self _) rfl
        simp [absent, Prod.ext_iff, eq_comm]
      · rw [if_neg same, ih distinct]
        simp [same, Prod.ext_iff]

theorem nodup_keys (t : Table α) : t.keys.Nodup := by
  refine t.keys_sorted.imp fun {a b} below same => ?_
  rw [same] at below
  exact String.lt_irrefl b below

theorem nodup_entries (t : Table α) : t.entries.Nodup := (nodup_keys t).of_map

/-- A table of pairs with distinct keys lists the pairs in another order. -/
theorem perm_entries_ofList (distinct : (pairs.map (·.1)).Nodup) :
    (ofList pairs).entries.Perm pairs := by
  refine (List.perm_ext_iff_of_nodup (nodup_entries _) distinct.of_map).mpr fun entry => ?_
  rw [mem_entries_iff, get?_ofList_eq_some_iff distinct]

/-- Pairs with distinct keys make the same table in any order. -/
theorem ofList_perm {pairs' : List (String × α)} (distinct : (pairs.map (·.1)).Nodup)
    (same : pairs'.Perm pairs) : ofList pairs' = ofList pairs := by
  have distinct' : (pairs'.map (·.1)).Nodup := (same.map _).nodup_iff.mpr distinct
  refine ext_get? fun key => Option.ext fun value => ?_
  rw [get?_ofList_eq_some_iff distinct', get?_ofList_eq_some_iff distinct, same.mem_iff]

/-- A key that is written and erased might as well not have been written. -/
@[simp] theorem erase_insert (t : Table α) (key : String) (value : α) :
    (t.insert key value).erase key = t.erase key := by
  refine ext_get? fun asked => ?_
  by_cases same : asked = key <;> simp [get?_erase, get?_insert, same]

/-- Erasing a key that is not there changes nothing. -/
theorem erase_of_absent {t : Table α} (absent : t.get? key = none) : t.erase key = t := by
  refine ext_get? fun asked => ?_
  by_cases same : asked = key
  · simp [get?_erase, same, absent]
  · simp [get?_erase, same]

/-- The values of a table are one of them and those that stay when its key is erased. -/
theorem perm_values_erase {t : Table α} (found : t.get? key = some value) :
    t.values.Perm (value :: (t.erase key).values) := by
  have absent : (key, value) ∉ (t.erase key).entries := by
    rw [mem_entries_iff, get?_erase, if_pos rfl]
    exact nofun
  have distinct : ((key, value) :: (t.erase key).entries).Nodup :=
    List.nodup_cons.mpr ⟨absent, nodup_entries _⟩
  have entries : t.entries.Perm ((key, value) :: (t.erase key).entries) := by
    refine (List.perm_ext_iff_of_nodup (nodup_entries t) distinct).mpr fun (key', value') => ?_
    rw [List.mem_cons, mem_entries_iff, mem_entries_iff, get?_erase, Prod.mk.injEq]
    by_cases same : key' = key
    · simp [same, found, eq_comm]
    · simp [same]
  exact entries.map (·.2)

/-- Tables with the same look-ups, as far as their values pass a test and are looked at through a
function, list the same values so far. -/
theorem map_filter_values_congr {t t' : Table α} {test : α → Bool} {f : α → β}
    (same : ∀ key, ((t.get? key).filter test).map f = ((t'.get? key).filter test).map f) :
    (t.values.filter test).map f = (t'.values.filter test).map f := by
  have listed : ∀ (t : Table α) (e : String × β),
      e ∈ (t.entries.filter fun e => test e.2).map (fun e => (e.1, f e.2)) ↔
        ((t.get? e.1).filter test).map f = some e.2 := by
    rintro t ⟨key, seen⟩
    simp only [List.mem_map, List.mem_filter, Prod.exists, Prod.mk.injEq, mem_entries_iff,
      Option.map_eq_some_iff, Option.filter_eq_some_iff]
    constructor
    · rintro ⟨_, value, ⟨found, passes⟩, rfl, shown⟩
      exact ⟨value, ⟨found, passes⟩, shown⟩
    · rintro ⟨value, ⟨found, passes⟩, shown⟩
      exact ⟨key, value, ⟨found, passes⟩, rfl, shown⟩
  have sorted : ∀ t : Table α, ((t.entries.filter fun e => test e.2).map
      (fun e => (e.1, f e.2))).Pairwise fun a b => a.1 < b.1 :=
    fun t => List.pairwise_map.mpr (t.sorted.filter _)
  have entries := eq_of_mem_iff_of_sorted (sorted t) (sorted t') fun e => by
    rw [listed, listed, same]
  simpa [values, List.filter_map, Function.comp_def] using congrArg (List.map (·.2)) entries

def mapKeyed (t : Table α) (f : String → α → β) : Table β :=
  ⟨t.entries.map fun e => (e.1, f e.1 e.2), List.pairwise_map.mpr t.sorted⟩

theorem get?_mapKeyed (t : Table α) (f : String → α → β) (key : String) :
    (t.mapKeyed f).get? key = (t.get? key).map (f key) := by
  unfold get? mapKeyed
  simp only
  induction t.entries with
  | nil => rfl
  | cons e entries ih =>
      by_cases same : key = e.1
      · simp [lookUp, same]
      · simp [lookUp, same, ih]

end MachinePool.Table
