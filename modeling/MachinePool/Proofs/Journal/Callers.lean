import MachinePool.Proofs.Allocation.Uninterrupted

/-!
Callers that keep copies of records.

A record that a call answered or that somebody read may be passed in at any later
time, whoever has written its machine since, and even after the machine was
deleted and registered again. Such a copy was written some time (`IsCopy`); the
runs here let every record that was ever written be passed in (`CallerRun`). What
is registered is up to the caller, and an update only reports that a free machine
waits.

A run is looked at one write at a time (`Chronicle`). A call reads what it writes
over or is given it, so each write is one of five, made from a copy
(`GenuineWrite`): a placement and a claim by id are the claim of a record just
read, and an allocation is such a claim followed by the finalization of it. What
the five writes keep is therefore kept by every run, and so is what is said about
the records somebody holds.

* `CallerRun.chronicle`: every run is a chronicle.
* `CallerRun.isCopy_of_stored`: what is read is a copy.
-/

namespace MachinePool

variable {journal : List Entry} {s after : Store} {m copy written : Machine} {id : String}
variable {op : Operation} {cause : Cause}

/-! ### Copies -/

/-- A record that was written some time. -/
def IsCopy (journal : List Entry) (m : Machine) : Prop := ∃ cause, .wrote cause m ∈ journal

/-- Whether the copies that a call is given are genuine. An update is given a free machine's copy and
the same copy waiting. -/
def Operation.Genuine (journal : List Entry) : Operation → Prop
  | replace old new => IsCopy journal old ∧ old.isFree = true ∧ new = { old with waiting := true }
  | claim copy => IsCopy journal copy
  | attach copy _ _ => IsCopy journal copy
  | _ => True

theorem IsCopy.append (held : IsCopy journal m) (entries : List Entry) :
    IsCopy (journal ++ entries) m := by
  obtain ⟨cause, mem⟩ := held
  exact ⟨cause, List.mem_append_left _ mem⟩

/-- A write adds one record to the copies that may be in use. -/
theorem isCopy_wrote_iff : IsCopy (journal ++ [.wrote cause written]) m ↔
    IsCopy journal m ∨ m = written := by
  simp [IsCopy, exists_or]

/-- A deletion takes no copy out of use. -/
theorem isCopy_deleted_iff : IsCopy (journal ++ [.deleted id]) m ↔ IsCopy journal m := by
  simp [IsCopy]

/-! ### Runs -/

/-- `CallerRun journal s`: calls with genuine copies, successful or not, lead from the store without
records to `s` and write the journal. -/
inductive CallerRun : List Entry → Store → Prop where
  | start : CallerRun [] .empty
  | call {journal : List Entry} {s : Store} (op : Operation) :
      CallerRun journal s → op.Genuine journal →
      CallerRun (journal ++ (op.effect s).1) (op.effect s).2
  /-- A release whose read lies further back. -/
  | giveBack {journal : List Entry} {s after : Store} {copy written : Machine} :
      CallerRun journal s → IsCopy journal copy → copy.isTaken = true →
      s.replaceCopy copy (Store.released copy) = .ok (written, after) →
      CallerRun (journal ++ [.wrote .release written]) after

/-- A run goes on with a call of which is known what it does. -/
theorem CallerRun.perform (run : CallerRun journal s) (op : Operation)
    (genuine : op.Genuine journal) {entries : List Entry}
    (effect : op.effect s = (entries, after)) : CallerRun (journal ++ entries) after := by
  have next := run.call op genuine
  rw [effect] at next
  exact next

/-- What these runs lead to, calls with arbitrary copies lead to as well. -/
theorem CallerRun.reachable (run : CallerRun journal s) : s.Reachable := by
  induction run with
  | start => exact Store.reachable_history []
  | call op _ _ ih => exact ih.effect op
  | @giveBack journal s after copy written _ _ _ replaced ih =>
      -- In the store the second half of a release is an update.
      have updated := ih.effect (.replace copy (Store.released copy))
      rw [Operation.effect, Store.replaceCopy_eq_ok_iff.mp replaced] at updated
      exact updated

/-! ### Writes -/

/-- `GenuineWrite journal s cause m after`: a write that is made from a genuine copy, or that
registers a machine. -/
inductive GenuineWrite (journal : List Entry) (s : Store) : Cause → Machine → Store → Prop where
  | register {m written : Machine} {after : Store} :
      s.register m = .ok (written, after) → GenuineWrite journal s .registration written after
  | report {copy written : Machine} {after : Store} :
      IsCopy journal copy → copy.isFree = true →
      s.replace copy { copy with waiting := true } = .ok (written, after) →
      GenuineWrite journal s .replacement written after
  | claim {copy written : Machine} {after : Store} :
      IsCopy journal copy → s.claim copy = .ok (written, after) →
      GenuineWrite journal s .claim written after
  | attach {copy written : Machine} {after : Store} {a : Allocation} {tags : List String} :
      IsCopy journal copy → s.attachAllocation copy a tags = .ok (written, after) →
      GenuineWrite journal s .allocation written after
  | release {copy written : Machine} {after : Store} :
      IsCopy journal copy → s.replaceCopy copy (Store.released copy) = .ok (written, after) →
      GenuineWrite journal s .release written after

/-- A genuine write moves the marker of its machine on by one. -/
theorem GenuineWrite.wrote (write : GenuineWrite journal s cause m after) : s.Wrote m after := by
  cases write with
  | register h => exact Store.wrote_of_register h
  | report _ _ h => exact Store.wrote_of_replace h
  | claim _ h => exact Store.wrote_of_claim h
  | attach _ h => exact Store.wrote_of_attachAllocation h
  | release _ h => exact Store.wrote_of_replaceCopy h

/-- `Chronicle journal s`: the entries of the journal, one after the other, lead to `s`. -/
inductive Chronicle : List Entry → Store → Prop where
  | start : Chronicle [] .empty
  | other {journal : List Entry} {s after : Store} :
      Chronicle journal s → after.machines = s.machines → Chronicle journal after
  | write {journal : List Entry} {s after : Store} {cause : Cause} {m : Machine} :
      Chronicle journal s → GenuineWrite journal s cause m after →
      Chronicle (journal ++ [.wrote cause m]) after
  | delete {journal : List Entry} {s : Store} (id : String) :
      Chronicle journal s → Chronicle (journal ++ [.deleted id]) (s.deleteMachine id).2

namespace Chronicle

theorem accounts (chronicle : Chronicle journal s) : Accounts journal s := by
  induction chronicle with
  | start => exact .initial
  | other _ same ih => exact ih.congr same
  | write _ write ih => exact ih.wrote write.wrote _
  | delete id _ ih => exact ih.deleted id

theorem isCopy_of_stored (chronicle : Chronicle journal s) (found : s.machine? id = some m) :
    IsCopy journal m :=
  (mem_writesOf_iff.mp (chronicle.accounts.mem_writesOf_of_stored found)).2

/-- A call of one write goes on with a chronicle. -/
theorem settle {ε : Type} (chronicle : Chronicle journal s)
    {result : Except ε (Machine × Store)}
    (write : ∀ m after, result = .ok (m, after) → GenuineWrite journal s cause m after) :
    Chronicle (journal ++ (settle cause s result).1) (MachinePool.settle cause s result).2 := by
  cases result with
  | error e =>
      rw [MachinePool.settle, List.append_nil]
      exact chronicle
  | ok answer => exact chronicle.write (write answer.1 answer.2 rfl)

/-- A chronicle goes on through an allocation, as a claim and its finalization. -/
theorem allocate (chronicle : Chronicle journal s) (reached : s.Reachable) (now : UInt64)
    (r : Request) (words : Placement.RandomWords) :
    Chronicle (journal ++ (allocateEffect s now r words).1) (allocateEffect s now r words).2 := by
  rcases Store.allocateEffect_cases reached now r words with
    nothing | ⟨m, a, tags, stored, free, both⟩
  · rw [nothing, List.append_nil]
    exact chronicle
  · have claimed : Chronicle (journal ++ [.wrote .claim m.claimed]) (s.putMachine m.claimed) :=
      chronicle.write (.claim (chronicle.isCopy_of_stored stored) (Store.claim_of_stored stored))
    have isClaim : IsCopy (journal ++ [.wrote .claim m.claimed]) m.claimed :=
      isCopy_wrote_iff.mpr (.inr rfl)
    have bound := claimed.write
      (.attach isClaim (Store.attachAllocation_of_claimed free a tags))
    rw [List.append_assoc] at bound
    rw [both]
    exact bound

/-- A call with genuine copies goes on with a chronicle. -/
theorem call (chronicle : Chronicle journal s) (reached : s.Reachable)
    (genuine : op.Genuine journal) :
    Chronicle (journal ++ (op.effect s).1) (op.effect s).2 := by
  cases op with
  | register m =>
      apply chronicle.settle
      intro written after registered
      exact .register registered
  | replace old new =>
      obtain ⟨held, free, rfl⟩ := genuine
      apply chronicle.settle
      intro written after replaced
      exact .report held free replaced
  | claim copy =>
      apply chronicle.settle
      intro written after claimed
      exact .claim genuine claimed
  | claimMachine id =>
      apply chronicle.settle
      intro written after claimed
      obtain ⟨copy, read, claimed⟩ := Store.claimMachine_eq_ok_iff.mp claimed
      have found := (Store.readUnclaimed_eq_ok_iff.mp read).1
      exact .claim (chronicle.isCopy_of_stored found) claimed
  | selectAndClaim project partition size tags words =>
      apply chronicle.settle
      intro written after claimed
      obtain ⟨copy, _, selected, claimed⟩ := Store.exists_claim_of_selectAndClaim claimed
      have found := (Store.isCandidate_of_select reached selected).stored
      exact .claim (chronicle.isCopy_of_stored found) claimed
  | attach copy a tags =>
      apply chronicle.settle
      intro written after attached
      exact .attach genuine attached
  | release id =>
      apply chronicle.settle
      intro written after released
      obtain ⟨copy, found, -, replaced⟩ := Store.release_eq_ok_iff.mp released
      exact .release (chronicle.isCopy_of_stored found)
        (Store.replaceCopy_eq_ok_iff.mpr replaced)
  | allocate now r words => exact chronicle.allocate reached now r words
  | delete id => exact chronicle.delete id
  | putNetwork n =>
      rw [Operation.effect, List.append_nil]
      exact chronicle.other rfl
  | putLease l =>
      rw [Operation.effect, List.append_nil]
      exact chronicle.other rfl
  | putHeartbeat h =>
      rw [Operation.effect, List.append_nil]
      exact chronicle.other rfl

end Chronicle

namespace CallerRun

/-- Every run is a chronicle. -/
theorem chronicle (run : CallerRun journal s) : Chronicle journal s := by
  induction run with
  | start => exact .start
  | call op run genuine ih => exact ih.call run.reachable genuine
  | giveBack _ held _ replaced ih => exact ih.write (.release held replaced)

/-- What is read is a copy. -/
theorem isCopy_of_stored (run : CallerRun journal s) (found : s.machine? id = some m) :
    IsCopy journal m :=
  run.chronicle.isCopy_of_stored found

end CallerRun

end MachinePool
