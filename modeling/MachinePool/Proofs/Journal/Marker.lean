import MachinePool.Proofs.Journal.Operation
import Mathlib.Data.List.Induction
import Mathlib.Data.Nat.ModEq

/-!
What version markers count.

The incarnation of a machine id is the list of the writes of its record since
the id was last deleted. Along every history the stored record is the last write
of the current incarnation, and the marker of a write is its number in it
(`accounts_history`). So a copy is current exactly when its marker is the number
of writes so far (`isCurrent_iff`), whoever wrote and whatever markers callers
put into their records.

* `accounts_history`: after every run the journal accounts for the store.
* `isCurrent_history_iff`: without deletions a copy is current exactly when its
  marker counts all writes of its machine.
-/

namespace MachinePool

/-- What stands at a place of a list with one more element. -/
theorem getElem?_concat_eq_some_iff {α : Type} {xs : List α} {x y : α} {i : Nat} :
    (xs ++ [x])[i]? = some y ↔ xs[i]? = some y ∨ i = xs.length ∧ x = y := by
  rcases Nat.lt_trichotomy i xs.length with lt | rfl | gt
  · simp [List.getElem?_append_left lt, Nat.ne_of_lt lt]
  · simp
  · have beyond : (xs ++ [x]).length ≤ i := by
      rw [List.length_append, List.length_singleton]
      exact gt
    rw [List.getElem?_eq_none beyond, List.getElem?_eq_none (Nat.le_of_lt gt)]
    simp [Nat.ne_of_gt gt]

/-- Markers are equal when they count alike modulo the size of a marker. -/
theorem ofNat_eq_ofNat_iff {a b : Nat} :
    UInt64.ofNat a = UInt64.ofNat b ↔ a ≡ b [MOD 2 ^ 64] := by
  rw [← UInt64.toNat_inj, UInt64.toNat_ofNat', UInt64.toNat_ofNat']
  rfl

theorem ofNat_ne_ofNat {a b : Nat} (lt : a < b) (few : b < 2 ^ 64) :
    UInt64.ofNat a ≠ UInt64.ofNat b := by
  rw [Ne, ofNat_eq_ofNat_iff]
  intro same
  have := Nat.ModEq.eq_of_lt_of_lt same (Nat.lt_trans lt few) few
  omega

/-! ### Incarnations -/

/-- The writes of a machine since its id was last deleted, after one more entry. -/
def Entry.extend (id : String) (writes : List Machine) : Entry → List Machine
  | wrote _ m => if m.id = id then writes ++ [m] else writes
  | deleted gone => if gone = id then [] else writes

/-- The writes of a machine since its id was last deleted, oldest first. -/
def incarnation (id : String) (journal : List Entry) : List Machine :=
  journal.foldl (Entry.extend id) []

theorem incarnation_concat (id : String) (journal : List Entry) (e : Entry) :
    incarnation id (journal ++ [e]) = e.extend id (incarnation id journal) := by
  simp [incarnation]

def writesOf (id : String) (journal : List Entry) : List Machine :=
  journal.filterMap fun
    | .wrote _ m => if m.id = id then some m else none
    | .deleted _ => none

theorem writesOf_append (id : String) (journal entries : List Entry) :
    writesOf id (journal ++ entries) = writesOf id journal ++ writesOf id entries :=
  List.filterMap_append

theorem length_writesOf_le (id : String) (journal : List Entry) :
    (writesOf id journal).length ≤ journal.length :=
  List.length_filterMap_le _ _

theorem mem_writesOf_iff {id : String} {journal : List Entry} {m : Machine} :
    m ∈ writesOf id journal ↔ m.id = id ∧ ∃ cause, .wrote cause m ∈ journal := by
  rw [writesOf, List.mem_filterMap]
  constructor
  · rintro ⟨e, mem, written⟩
    cases e with
    | wrote cause w =>
        obtain ⟨same, written⟩ := Option.ite_none_right_eq_some.mp written
        cases written
        exact ⟨same, cause, mem⟩
    | deleted gone => cases written
  · rintro ⟨rfl, cause, mem⟩
    exact ⟨.wrote cause m, mem, if_pos rfl⟩

/-- An incarnation is what was written last. -/
theorem incarnation_suffix (id : String) (journal : List Entry) :
    incarnation id journal <:+ writesOf id journal := by
  induction journal using List.reverseRecOn with
  | nil => exact List.suffix_rfl
  | append_singleton journal e ih =>
      obtain ⟨first, whole⟩ := ih
      rw [incarnation_concat, writesOf_append, ← whole]
      cases e with
      | wrote cause m => by_cases same : m.id = id <;> simp [Entry.extend, writesOf, same]
      | deleted gone => by_cases same : gone = id <;> simp [Entry.extend, writesOf, same]

theorem id_of_mem_incarnation {id : String} {journal : List Entry} {m : Machine}
    (h : m ∈ incarnation id journal) : m.id = id :=
  (mem_writesOf_iff.mp ((incarnation_suffix id journal).mem h)).1

/-! ### The journal accounts for the store -/

/-- Every stored record is the last write of its incarnation, and every write carries its number in
its incarnation as its marker. -/
structure Accounts (journal : List Entry) (s : Store) : Prop where
  stored : ∀ id, s.machine? id = (incarnation id journal).getLast?
  marker : ∀ id i m, (incarnation id journal)[i]? = some m → m.changed = UInt64.ofNat (i + 1)

namespace Accounts

variable {journal : List Entry} {s after : Store} {id : String} {m copy : Machine}

theorem initial : Accounts [] .empty := ⟨fun _ => rfl, fun _ _ _ h => by cases h⟩

/-- The last write of an incarnation carries the number of its writes. -/
theorem changed_of_stored (h : Accounts journal s) (found : s.machine? id = some m) :
    m.changed = UInt64.ofNat (incarnation id journal).length := by
  rw [h.stored, List.getLast?_eq_getElem?] at found
  have bound : (incarnation id journal).length - 1 < (incarnation id journal).length :=
    (List.getElem?_eq_some_iff.mp found).1
  have marker := h.marker id _ m found
  rwa [Nat.sub_add_cancel (by omega)] at marker

theorem id_of_stored (h : Accounts journal s) (found : s.machine? id = some m) : m.id = id := by
  rw [h.stored] at found
  exact id_of_mem_incarnation (List.mem_of_getLast? found)

/-- The marker due to the next write numbers it. -/
theorem nextMarker_eq (h : Accounts journal s) (id : String) :
    Store.nextMarker (s.machine? id) =
      UInt64.ofNat ((incarnation id journal).length + 1) := by
  cases found : s.machine? id with
  | none =>
      have empty : incarnation id journal = [] := by
        rw [h.stored] at found
        exact List.getLast?_eq_none_iff.mp found
      simp [Store.nextMarker, empty]
  | some m => simp [Store.nextMarker, h.changed_of_stored found]

/-- Writing keeps the account. -/
theorem wrote (h : Accounts journal s) (write : s.Wrote m after) (cause : Cause) :
    Accounts (journal ++ [.wrote cause m]) after := by
  have due : m.changed = UInt64.ofNat ((incarnation m.id journal).length + 1) := by
    rw [write.marker, h.nextMarker_eq]
  constructor
  · intro id
    rw [incarnation_concat, write.store, Store.machine?_putMachine]
    by_cases same : id = m.id
    · simp [Entry.extend, same]
    · simp [Entry.extend, same, Ne.symm same, h.stored]
  · intro id i w found
    rw [incarnation_concat] at found
    by_cases same : m.id = id
    · subst same
      simp only [Entry.extend, if_true] at found
      rcases getElem?_concat_eq_some_iff.mp found with found | ⟨rfl, rfl⟩
      · exact h.marker m.id i w found
      · exact due
    · exact h.marker id i w (by simpa [Entry.extend, same] using found)

/-- Deleting keeps the account: the next incarnation counts from the start. -/
theorem deleted (h : Accounts journal s) (gone : String) :
    Accounts (journal ++ [.deleted gone]) (s.deleteMachine gone).2 := by
  constructor
  · intro id
    rw [incarnation_concat, Store.machine?_deleteMachine]
    by_cases same : id = gone
    · simp [Entry.extend, same]
    · simp [Entry.extend, same, Ne.symm same, h.stored]
  · intro id i w found
    rw [incarnation_concat] at found
    by_cases same : gone = id
    · simp [Entry.extend, same] at found
    · exact h.marker id i w (by simpa [Entry.extend, same] using found)

theorem congr (h : Accounts journal s) (same : after.machines = s.machines) :
    Accounts journal after :=
  ⟨fun id => by rw [Store.machine?, same]; exact h.stored id, h.marker⟩

/-- Entries with the markers due to them keep the accounts. -/
theorem recorded (h : Accounts journal s) {entries : List Entry}
    (steps : Recorded s entries after) : Accounts (journal ++ entries) after := by
  induction steps generalizing journal with
  | nothing same => simpa using h.congr same
  | wrote write _ ih => simpa using ih (h.wrote write _)
  | deleted _ ih => simpa using ih (h.deleted _)

/-- A copy is current exactly when its marker is the number of writes of its machine. -/
theorem isCurrent_iff (h : Accounts journal s) :
    s.IsCurrent copy ↔ incarnation copy.id journal ≠ [] ∧
      copy.changed = UInt64.ofNat (incarnation copy.id journal).length := by
  constructor
  · rintro ⟨m, found, marker⟩
    refine ⟨?_, marker ▸ h.changed_of_stored found⟩
    intro empty
    rw [h.stored, empty] at found
    cases found
  · rintro ⟨nonempty, marker⟩
    obtain ⟨m, last⟩ := Option.ne_none_iff_exists'.mp (mt List.getLast?_eq_none_iff.mp nonempty)
    have found : s.machine? copy.id = some m := by rw [h.stored, last]
    exact ⟨m, found, by rw [h.changed_of_stored found, marker]⟩

/-- A stored record was written some time. -/
theorem mem_writesOf_of_stored (h : Accounts journal s) (found : s.machine? id = some m) :
    m ∈ writesOf id journal := by
  rw [h.stored] at found
  exact (incarnation_suffix id journal).mem (List.mem_of_getLast? found)

/-- As long as markers have not gone around, a copy of the present incarnation that is current is
the stored record. -/
theorem eq_stored_of_current (h : Accounts journal s)
    (few : (incarnation copy.id journal).length < 2 ^ 64)
    (written : copy ∈ incarnation copy.id journal) (current : s.IsCurrent copy)
    (found : s.machine? copy.id = some m) : copy = m := by
  obtain ⟨i, place⟩ := List.mem_iff_getElem?.mp written
  have bound : i < (incarnation copy.id journal).length := (List.getElem?_eq_some_iff.mp place).1
  have numbered := h.marker copy.id i copy place
  have counted := (h.isCurrent_iff.mp current).2
  have last : i + 1 = (incarnation copy.id journal).length := by
    by_contra earlier
    exact ofNat_ne_ofNat (by omega) few (numbered.symm.trans counted)
  rw [h.stored, List.getLast?_eq_getElem?, ← last] at found
  exact Option.some.inj (place.symm.trans found)

end Accounts

/-- The accounts of every history are in order. -/
theorem accounts_history (ops : List Operation) :
    Accounts (history ops).journal (history ops).store :=
  Accounts.initial.recorded (recorded_performAll _ ops)

/-! ### Histories without deletions -/

/-- Without deletions of its machine an incarnation goes on. -/
theorem incarnation_append (journal : List Entry) {entries : List Entry} {id : String}
    (kept : .deleted id ∉ entries) :
    incarnation id (journal ++ entries) = incarnation id journal ++ writesOf id entries := by
  induction entries using List.reverseRecOn with
  | nil => simp [writesOf]
  | append_singleton entries e ih =>
      rw [← List.append_assoc, incarnation_concat, writesOf_append,
        ih fun mem => kept (by simp [mem])]
      cases e with
      | wrote cause m => by_cases same : m.id = id <;> simp [Entry.extend, writesOf, same]
      | deleted gone =>
          have other : gone ≠ id := by
            rintro rfl
            exact kept (by simp)
          simp [Entry.extend, writesOf, other]

def Operation.isDelete : Operation → Bool
  | delete _ => true
  | _ => false

theorem deleted_notMem_settle {ε : Type} {s : Store} {result : Except ε (Machine × Store)}
    (cause : Cause) (id : String) : .deleted id ∉ (settle cause s result).1 := by
  cases result <;> simp [settle]

theorem deleted_notMem_allocateEffect {s : Store} {now : UInt64} {r : Request}
    {words : Placement.RandomWords} (id : String) :
    .deleted id ∉ (allocateEffect s now r words).1 := by
  unfold allocateEffect
  split
  · simp
  · split
    · simp
    · split
      · simp
      · simpa using deleted_notMem_settle .release id

/-- Only a deletion is journaled as one. -/
theorem deleted_notMem_effect {s : Store} {op : Operation} (kept : op.isDelete = false)
    (id : String) : .deleted id ∉ (op.effect s).1 := by
  cases op with
  | delete gone => cases kept
  | allocate now r words => exact deleted_notMem_allocateEffect id
  | putNetwork n => simp [Operation.effect]
  | putLease l => simp [Operation.effect]
  | putHeartbeat h => simp [Operation.effect]
  | _ => exact deleted_notMem_settle _ id

/-- A run that does not delete a machine records no deletion of it. -/
theorem deleted_notMem_of_notMem {s : Store} {ops : List Operation} {id : String}
    (kept : .delete id ∉ ops) : .deleted id ∉ (History.performAll ⟨[], s⟩ ops).journal := by
  intro mem
  obtain ⟨op, among, before, effect⟩ := History.exists_effect_of_mem_journal mem
  cases isDelete : op.isDelete with
  | false => exact deleted_notMem_effect isDelete id effect
  | true =>
      cases op with
      | delete gone =>
          cases List.mem_singleton.mp effect
          exact kept among
      | _ => cases isDelete

theorem deleted_notMem_performAll {s : Store} {ops : List Operation}
    (kept : ∀ op ∈ ops, op.isDelete = false) (id : String) :
    .deleted id ∉ (History.performAll ⟨[], s⟩ ops).journal :=
  deleted_notMem_of_notMem fun mem => nomatch kept _ mem

/-- In a run without deletions a machine has one incarnation. -/
theorem incarnation_history_eq {ops : List Operation}
    (kept : ∀ op ∈ ops, op.isDelete = false) (id : String) :
    incarnation id (history ops).journal = writesOf id (history ops).journal :=
  incarnation_append [] (deleted_notMem_performAll kept id)

/-- Without deletions, a copy is current exactly when its marker counts all writes of its
machine. -/
theorem isCurrent_history_iff {ops : List Operation} (kept : ∀ op ∈ ops, op.isDelete = false)
    {copy : Machine} :
    (history ops).store.IsCurrent copy ↔ writesOf copy.id (history ops).journal ≠ [] ∧
      copy.changed = UInt64.ofNat (writesOf copy.id (history ops).journal).length := by
  rw [(accounts_history ops).isCurrent_iff, incarnation_history_eq kept]

end MachinePool
