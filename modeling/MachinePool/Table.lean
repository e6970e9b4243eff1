/-!
Tables of values under text keys, the shape of everything the pool stores or
groups: machines by id, leases by address, plans by network, machines by rack.

The entries of a table stand in the code-point order of their keys and no key
occurs twice. Both facts are carried by the type, so equal contents mean equal
tables (`Table.ext_get?`), and listing a table in key order is listing its
entries.

* `get?_insert`, `get?_erase`, `get?_filterKeys`: what each operation does to a
  look-up.
* `mem_entries_iff`: an entry is present exactly when its key looks it up.
-/

namespace MachinePool

/-- Values under text keys, in the code-point order of the keys. -/
structure Table (α : Type) where
  entries : List (String × α)
  sorted : entries.Pairwise fun a b => a.1 < b.1

namespace Table

variable {α β : Type}

instance [DecidableEq α] : DecidableEq (Table α) := fun a b =>
  decidable_of_iff (a.entries = b.entries)
    ⟨fun h => by cases a; cases b; simp_all, fun h => by rw [h]⟩

instance [Repr α] : Repr (Table α) := ⟨fun t n => reprPrec t.entries n⟩

/-! ### Reading -/

def empty : Table α := ⟨[], .nil⟩

instance : Inhabited (Table α) := ⟨empty⟩

/-- The value of the first entry with a key. -/
def lookUp (key : String) : List (String × α) → Option α
  | [] => none
  | (k, v) :: rest => if key = k then some v else lookUp key rest

def get? (t : Table α) (key : String) : Option α := lookUp key t.entries

def keys (t : Table α) : List String := t.entries.map (·.1)

/-- The values in the order of their keys. -/
def values (t : Table α) : List α := t.entries.map (·.2)

def size (t : Table α) : Nat := t.entries.length

def contains (t : Table α) (key : String) : Bool := (t.get? key).isSome

/-! ### Writing -/

/-- Entries with the value under `key` set: a new key goes before the first larger one. -/
def setEntry (key : String) (value : α) : List (String × α) → List (String × α)
  | [] => [(key, value)]
  | (k, v) :: rest =>
    if key < k then (key, value) :: (k, v) :: rest
    else if key = k then (key, value) :: rest
    else (k, v) :: setEntry key value rest

theorem fst_eq_or_mem_of_mem_setEntry {key : String} {value : α} {e : String × α} :
    ∀ {entries : List (String × α)}, e ∈ setEntry key value entries → e.1 = key ∨ e ∈ entries
  | [], h => by simp_all [setEntry]
  | (k, v) :: rest, h => by
    simp only [setEntry] at h
    split at h
    · rcases List.mem_cons.1 h with rfl | h
      · exact .inl rfl
      · exact .inr h
    · split at h
      · rcases List.mem_cons.1 h with rfl | h
        · exact .inl rfl
        · exact .inr (List.mem_cons_of_mem _ h)
      · rcases List.mem_cons.1 h with rfl | h
        · exact .inr List.mem_cons_self
        · exact (fst_eq_or_mem_of_mem_setEntry h).imp id (List.mem_cons_of_mem _)

/-- Setting a value keeps the keys in order. -/
theorem pairwise_setEntry (key : String) (value : α) :
    ∀ {entries : List (String × α)}, entries.Pairwise (fun a b => a.1 < b.1) →
      (setEntry key value entries).Pairwise fun a b => a.1 < b.1
  | [], _ => by simp [setEntry]
  | (k, v) :: rest, h => by
    obtain ⟨above, sortedRest⟩ := List.pairwise_cons.1 h
    simp only [setEntry]
    split
    · rename_i lt
      refine List.pairwise_cons.2 ⟨fun e he => ?_, h⟩
      rcases List.mem_cons.1 he with rfl | he
      · exact lt
      · exact String.lt_trans lt (above e he)
    · split
      · rename_i eq
        exact List.pairwise_cons.2 ⟨fun e he => eq ▸ above e he, sortedRest⟩
      · rename_i notLt ne
        refine List.pairwise_cons.2 ⟨fun e he => ?_, pairwise_setEntry key value sortedRest⟩
        rcases fst_eq_or_mem_of_mem_setEntry he with rfl | he
        · exact Std.lt_of_le_of_ne (String.not_lt.1 notLt) (Ne.symm ne)
        · exact above e he

def insert (t : Table α) (key : String) (value : α) : Table α :=
  ⟨setEntry key value t.entries, pairwise_setEntry key value t.sorted⟩

def erase (t : Table α) (key : String) : Table α :=
  ⟨t.entries.filter (·.1 != key), t.sorted.filter _⟩

def filterKeys (t : Table α) (keep : String → Bool) : Table α :=
  ⟨t.entries.filter fun e => keep e.1, t.sorted.filter _⟩

/-- The table of a list of pairs; of several values for one key the last one stays. -/
def ofList (pairs : List (String × α)) : Table α :=
  pairs.foldl (fun t e => t.insert e.1 e.2) empty

/-! ### Looking up after writing -/

theorem lookUp_setEntry (key : String) (value : α) (key' : String) :
    ∀ {entries : List (String × α)}, entries.Pairwise (fun a b => a.1 < b.1) →
      lookUp key' (setEntry key value entries) =
        if key' = key then some value else lookUp key' entries
  | [], _ => by simp [setEntry, lookUp]
  | (k, v) :: rest, sorted => by
    have ih := lookUp_setEntry key value key' (List.pairwise_cons.1 sorted).2
    simp only [setEntry]
    split
    · simp [lookUp]
    · split
      · rename_i eq
        subst eq
        by_cases h : key' = key <;> simp [lookUp, h]
      · rename_i ne
        by_cases h : key' = k
        · subst h
          simp [lookUp, Ne.symm ne]
        · simp [lookUp, h, ih]

@[simp] theorem get?_empty (key : String) : (empty : Table α).get? key = none := rfl

/-- A set value is found under its key, and other keys are looked up as before. -/
theorem get?_insert (t : Table α) (key : String) (value : α) (key' : String) :
    (t.insert key value).get? key' = if key' = key then some value else t.get? key' :=
  lookUp_setEntry key value key' t.sorted

@[simp] theorem get?_insert_self (t : Table α) (key : String) (value : α) :
    (t.insert key value).get? key = some value := by simp [get?_insert]

theorem lookUp_filter_fst (keep : String → Bool) (key : String) :
    ∀ entries : List (String × α), lookUp key (entries.filter fun e => keep e.1) =
      if keep key then lookUp key entries else none
  | [] => by simp [lookUp]
  | (k, v) :: rest => by
    have ih := lookUp_filter_fst keep key rest
    by_cases kept : keep k
    · by_cases same : key = k
      · subst same
        simp [kept, lookUp]
      · simp [kept, lookUp, same, ih]
    · by_cases same : key = k
      · subst same
        simp [kept, ih]
      · simp [kept, lookUp, same, ih]

theorem get?_filterKeys (t : Table α) (keep : String → Bool) (key : String) :
    (t.filterKeys keep).get? key = if keep key then t.get? key else none :=
  lookUp_filter_fst keep key t.entries

/-- An erased key is found no more, and other keys are looked up as before. -/
theorem get?_erase (t : Table α) (key key' : String) :
    (t.erase key).get? key' = if key' = key then none else t.get? key' := by
  refine (lookUp_filter_fst (fun k => k != key) key' t.entries).trans ?_
  by_cases h : key' = key <;> simp [h, get?]

/-! ### Entries -/

theorem lookUp_eq_some_iff_mem {key : String} {value : α} :
    ∀ {entries : List (String × α)}, entries.Pairwise (fun a b => a.1 < b.1) →
      (lookUp key entries = some value ↔ (key, value) ∈ entries)
  | [], _ => by simp [lookUp]
  | (k, v) :: rest, sorted => by
    obtain ⟨above, sortedRest⟩ := List.pairwise_cons.1 sorted
    have ih := @lookUp_eq_some_iff_mem key value _ sortedRest
    by_cases h : key = k
    · subst h
      have absent : (key, value) ∉ rest := fun mem => String.lt_irrefl key (above _ mem)
      simp [lookUp, absent, eq_comm]
    · simp [lookUp, h, ih]

/-- Sorted entry lists with the same members are equal. -/
theorem eq_of_mem_iff_of_sorted :
    ∀ {xs ys : List (String × α)}, xs.Pairwise (fun a b => a.1 < b.1) →
      ys.Pairwise (fun a b => a.1 < b.1) → (∀ e, e ∈ xs ↔ e ∈ ys) → xs = ys
  | [], [], _, _, _ => rfl
  | [], y :: ys, _, _, same => by simpa using (same y).2 List.mem_cons_self
  | x :: xs, [], _, _, same => by simpa using (same x).1 List.mem_cons_self
  | x :: xs, y :: ys, sx, sy, same => by
    obtain ⟨xAbove, sortedXs⟩ := List.pairwise_cons.1 sx
    obtain ⟨yAbove, sortedYs⟩ := List.pairwise_cons.1 sy
    have heads : x = y := by
      rcases List.mem_cons.1 ((same x).1 List.mem_cons_self) with h | hx
      · exact h
      · rcases List.mem_cons.1 ((same y).2 List.mem_cons_self) with h | hy
        · exact h.symm
        · exact absurd (yAbove _ hx) (String.lt_asymm (xAbove _ hy))
    subst heads
    have tails : xs = ys := eq_of_mem_iff_of_sorted sortedXs sortedYs fun e => by
      constructor
      · intro he
        rcases List.mem_cons.1 ((same e).1 (List.mem_cons_of_mem _ he)) with rfl | h
        · exact absurd (xAbove _ he) (String.lt_irrefl _)
        · exact h
      · intro he
        rcases List.mem_cons.1 ((same e).2 (List.mem_cons_of_mem _ he)) with rfl | h
        · exact absurd (yAbove _ he) (String.lt_irrefl _)
        · exact h
    rw [tails]

/-- An entry is present exactly when its key looks up its value. -/
theorem mem_entries_iff (t : Table α) {key : String} {value : α} :
    (key, value) ∈ t.entries ↔ t.get? key = some value :=
  (lookUp_eq_some_iff_mem t.sorted).symm

theorem mem_values_iff (t : Table α) {value : α} :
    value ∈ t.values ↔ ∃ key, t.get? key = some value := by
  simp [values, ← mem_entries_iff]

theorem mem_keys_iff (t : Table α) {key : String} : key ∈ t.keys ↔ (t.get? key).isSome := by
  simp [keys, Option.isSome_iff_exists, ← mem_entries_iff]

/-- Tables that answer every look-up alike are equal. -/
theorem ext_get? {s t : Table α} (same : ∀ key, s.get? key = t.get? key) : s = t := by
  have mem : ∀ e, e ∈ s.entries ↔ e ∈ t.entries := fun e => by
    rw [mem_entries_iff s, mem_entries_iff t, same]
  have equal : s.entries = t.entries :=
    eq_of_mem_iff_of_sorted s.sorted t.sorted mem
  cases s; cases t; simp_all

theorem keys_sorted (t : Table α) : t.keys.Pairwise (· < ·) :=
  List.pairwise_map.2 t.sorted

end Table

end MachinePool
