import MachinePool.Proofs.Allocation.Steps

/-!
Runs of calls on the store and the journal of what they wrote.

An `Operation` is a call with all its arguments; copies and records in it are
arbitrary. Performing one appends what it lastingly did to the machine table: an
entry for each record written and one for a deletion. An allocation writes up to
two records, its claim and then the allocation or the undone claim
(`allocateEffect_store` ties this account to the allocation itself).

* `recorded_effect`, `recorded_performAll`: the entries of an operation or of a
  run, applied one by one, lead from the store before to the store after, and
  every written record has the marker that follows the one it was written over.
-/

namespace MachinePool

inductive Cause where
  | registration
  | replacement
  | claim
  | allocation
  | release
  deriving DecidableEq, Repr

/-- A lasting change of the machine table. -/
inductive Entry where
  | wrote (cause : Cause) (record : Machine)
  | deleted (id : String)
  deriving DecidableEq, Repr

inductive Operation where
  | register (m : Machine)
  | replace (old new : Machine)
  | claim (copy : Machine)
  | claimMachine (id : String)
  | selectAndClaim (project partition size : String) (tags : List String)
      (words : Placement.RandomWords)
  | attach (copy : Machine) (a : Allocation) (tags : List String)
  | release (id : String)
  | allocate (now : UInt64) (r : Request) (words : Placement.RandomWords)
  | delete (id : String)
  | putNetwork (n : Network)
  | putLease (l : Lease)
  | putHeartbeat (h : Heartbeat)

/-! ### Effects -/

/-- A successful write is one entry; a failed one leaves nothing behind. -/
def settle {ε : Type} (cause : Cause) (s : Store) :
    Except ε (Machine × Store) → List Entry × Store
  | .ok (m, after) => ([.wrote cause m], after)
  | .error _ => ([], s)

def allocateEffect (s : Store) (now : UInt64) (r : Request) (words : Placement.RandomWords) :
    List Entry × Store :=
  match s.prepare r with
  | .error _ => ([], s)
  | .ok (partition, plan) =>
    match s.claimFor r partition words with
    | .error _ => ([], s)
    | .ok (claimed, s) =>
      match s.finalize now claimed r plan with
      | .ok (m, s) => ([.wrote .claim claimed, .wrote .allocation m], s)
      | .error _ =>
        let undone := settle .release s (s.release claimed.id)
        (.wrote .claim claimed :: undone.1, undone.2)

theorem allocateEffect_store (s : Store) (now : UInt64) (r : Request)
    (words : Placement.RandomWords) :
    (allocateEffect s now r words).2 = (s.allocate now r words).2 := by
  unfold allocateEffect Store.allocate
  cases s.prepare r with
  | error e => rfl
  | ok prepared =>
      obtain ⟨partition, plan⟩ := prepared
      cases claim : s.claimFor r partition words with
      | error e => simp only [claim]
      | ok claimResult =>
          obtain ⟨claimed, claimedStore⟩ := claimResult
          cases final : claimedStore.finalize now claimed r plan with
          | ok written => simp only [claim, final, Store.finalizeOrUnwind]
          | error e =>
              simp only [claim, final, Store.finalizeOrUnwind, Store.unwind]
              cases claimedStore.release claimed.id <;> rfl

/-- What an operation lastingly does to the machine table, and the store after it. -/
def Operation.effect (s : Store) : Operation → List Entry × Store
  | register m => settle .registration s (s.register m)
  | replace old new => settle .replacement s (s.replace old new)
  | claim copy => settle .claim s (s.claim copy)
  | claimMachine id => settle .claim s (s.claimMachine id)
  | selectAndClaim project partition size tags words =>
    settle .claim s (s.selectAndClaim project partition size tags words)
  | attach copy a tags => settle .allocation s (s.attachAllocation copy a tags)
  | release id => settle .release s (s.release id)
  | allocate now r words => allocateEffect s now r words
  | delete id => ([.deleted id], (s.deleteMachine id).2)
  | putNetwork n => ([], s.putNetwork n)
  | putLease l => ([], s.putLease l)
  | putHeartbeat h => ([], s.putHeartbeat h)

/-! ### Histories -/

/-- A store with the journal that led to it. -/
structure History where
  journal : List Entry
  store : Store

namespace History

def initial : History := ⟨[], .empty⟩

def perform (h : History) (op : Operation) : History :=
  ⟨h.journal ++ (op.effect h.store).1, (op.effect h.store).2⟩

def performAll (h : History) (ops : List Operation) : History := ops.foldl perform h

theorem performAll_append (h : History) (ops more : List Operation) :
    h.performAll (ops ++ more) = (h.performAll ops).performAll more :=
  List.foldl_append

/-- What operations do depends on the store alone, and they only add to the journal. -/
theorem performAll_eq (h : History) (ops : List Operation) :
    h.performAll ops = ⟨h.journal ++ (performAll ⟨[], h.store⟩ ops).journal,
      (performAll ⟨[], h.store⟩ ops).store⟩ := by
  induction ops generalizing h with
  | nil => simp [performAll]
  | cons op ops ih =>
      have first := ih (h.perform op)
      have alone := ih (perform ⟨[], h.store⟩ op)
      simp only [performAll, List.foldl_cons] at first alone ⊢
      rw [first, alone]
      simp [perform]

/-- Every entry of a run is an effect of one of its operations. -/
theorem exists_effect_of_mem_journal {s : Store} {ops : List Operation} {e : Entry}
    (mem : e ∈ (performAll ⟨[], s⟩ ops).journal) :
    ∃ op ∈ ops, ∃ before, e ∈ (op.effect before).1 := by
  induction ops generalizing s with
  | nil => cases mem
  | cons op ops ih =>
      have rest := performAll_eq (perform ⟨[], s⟩ op) ops
      simp only [performAll, List.foldl_cons] at mem rest
      rw [rest] at mem
      rcases List.mem_append.mp mem with first | later
      · exact ⟨op, List.mem_cons_self, s, by simpa [perform] using first⟩
      · obtain ⟨op', mem', effect⟩ := ih later
        exact ⟨op', List.mem_cons_of_mem _ mem', effect⟩

end History

/-- The history of a run on the store without records. -/
def history (ops : List Operation) : History := History.initial.performAll ops

/-- A free machine that waits in the pool, as it is first registered. -/
def Machine.idle (id : String) : Machine where
  id := id
  name := ""
  partition := "p"
  size := "s"
  rack := "r"
  state := ⟨.available, ""⟩
  waiting := true
  preallocated := false
  allocation := none
  tags := []
  changed := 0

/-! ### What an operation can do -/

/-- Entries that lead from one machine table to another, each write with the marker due to it. -/
inductive Recorded : Store → List Entry → Store → Prop where
  | nothing {s after : Store} (same : after.machines = s.machines) : Recorded s [] after
  | wrote {s next after : Store} {cause : Cause} {m : Machine} {entries : List Entry}
      (write : s.Wrote m next) (rest : Recorded next entries after) :
      Recorded s (.wrote cause m :: entries) after
  | deleted {s after : Store} {id : String} {entries : List Entry}
      (rest : Recorded (s.deleteMachine id).2 entries after) :
      Recorded s (.deleted id :: entries) after

/-- Only the machine table counts. -/
theorem Recorded.congr {s s' after : Store} {entries : List Entry} (h : Recorded s entries after)
    (same : s'.machines = s.machines) : Recorded s' entries after := by
  induction h generalizing s' with
  | nothing same' => exact .nothing (same'.trans same.symm)
  | wrote write _ ih =>
      refine .wrote ⟨?_, rfl⟩ (ih ?_)
      · rw [write.marker, Store.machine?, Store.machine?, same]
      · rw [write.store, Store.putMachine, Store.putMachine, same]
  | deleted _ ih =>
      refine .deleted (ih ?_)
      rw [Store.deleteMachine, Store.deleteMachine, same]

/-- Entries that lead to a store and entries that lead on from it lead on together. -/
theorem Recorded.append {s next after : Store} {first second : List Entry}
    (h : Recorded s first next) (h' : Recorded next second after) :
    Recorded s (first ++ second) after := by
  induction h with
  | nothing same => exact h'.congr same.symm
  | wrote write _ ih => exact .wrote write (ih h')
  | deleted _ ih => exact .deleted (ih h')

/-- A call that returns what it wrote is recorded by that one write. -/
theorem recorded_settle {ε : Type} {s : Store} {result : Except ε (Machine × Store)}
    (cause : Cause) (write : ∀ m after, result = .ok (m, after) → s.Wrote m after) :
    Recorded s (settle cause s result).1 (settle cause s result).2 := by
  cases result with
  | error e => exact .nothing rfl
  | ok written => exact .wrote (write written.1 written.2 rfl) (.nothing rfl)

theorem recorded_release (s : Store) (id : String) :
    Recorded s (settle .release s (s.release id)).1 (settle .release s (s.release id)).2 :=
  recorded_settle _ fun _ _ h => Store.wrote_of_release h

theorem recorded_allocateEffect (s : Store) (now : UInt64) (r : Request)
    (words : Placement.RandomWords) :
    Recorded s (allocateEffect s now r words).1 (allocateEffect s now r words).2 := by
  unfold allocateEffect
  cases s.prepare r with
  | error e => exact .nothing rfl
  | ok prepared =>
      obtain ⟨partition, plan⟩ := prepared
      cases claim : s.claimFor r partition words with
      | error e =>
          simp only [claim]
          exact .nothing rfl
      | ok claimResult =>
          obtain ⟨claimed, claimedStore⟩ := claimResult
          have wroteClaim : s.Wrote claimed claimedStore := Store.wrote_of_claimFor claim
          cases final : claimedStore.finalize now claimed r plan with
          | ok written =>
              simp only [claim, final]
              exact .wrote wroteClaim
                (.wrote (Store.wrote_of_attachAllocation final) (.nothing rfl))
          | error e =>
              simp only [claim, final]
              exact .wrote wroteClaim (recorded_release claimedStore claimed.id)

/-- What an operation journals leads from the store before it to the store after it. -/
theorem recorded_effect (s : Store) (op : Operation) :
    Recorded s (op.effect s).1 (op.effect s).2 := by
  cases op with
  | register m => exact recorded_settle _ fun _ _ h => Store.wrote_of_register h
  | replace old new => exact recorded_settle _ fun _ _ h => Store.wrote_of_replace h
  | claim copy => exact recorded_settle _ fun _ _ h => Store.wrote_of_claim h
  | claimMachine id => exact recorded_settle _ fun _ _ h => Store.wrote_of_claimMachine h
  | selectAndClaim => exact recorded_settle _ fun _ _ h => Store.wrote_of_selectAndClaim h
  | attach copy a tags =>
      exact recorded_settle _ fun _ _ h => Store.wrote_of_attachAllocation h
  | release id => exact recorded_release s id
  | allocate now r words => exact recorded_allocateEffect s now r words
  | delete id => exact .deleted (.nothing rfl)
  | putNetwork n => exact .nothing rfl
  | putLease l => exact .nothing rfl
  | putHeartbeat h => exact .nothing rfl

/-- What a run journals leads from its first store to its last. -/
theorem recorded_performAll (s : Store) (ops : List Operation) :
    Recorded s (History.performAll ⟨[], s⟩ ops).journal (History.performAll ⟨[], s⟩ ops).store := by
  induction ops generalizing s with
  | nil => exact .nothing rfl
  | cons op ops ih =>
      have rest := History.performAll_eq (History.perform ⟨[], s⟩ op) ops
      simp only [History.performAll, List.foldl_cons] at rest ⊢
      rw [rest]
      exact (recorded_effect s op).append (ih _)

end MachinePool
