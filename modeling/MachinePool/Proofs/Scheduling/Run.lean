import MachinePool.Proofs.Placement.Candidates

/-!
Schedulers that work on one store at the same time.

A scheduler finds a machine, claims the copy it found and finalizes the copy its
claim returned. Each of these is a step of its own, and between any two of them
other schedulers may take steps, machines may be registered, released and
reported waiting, and reports of their health may come in. Every copy that was
ever read may be used at any time later. A call that fails changes nothing and
is no step. Machines are not deleted.

A run is recorded by its trace, the list of what happened, oldest first.

* `Run.moment`: every event of a run happened in a step from an earlier store.
* `Run.eq_stored_of_current`: as long as markers have not gone around, a copy that
  is current is the stored record.
-/

namespace MachinePool.Scheduling

/-! ### Steps -/

inductive Source where
  | search
  | byId
  deriving DecidableEq, Repr

/-- What happens in one step. Schedulers are told apart by number. -/
inductive Event where
  /-- A scheduler searched for machines that can be handed out. -/
  | found (scheduler : Nat) (machines : List Machine)
  /-- A scheduler took a copy to claim. -/
  | candidate (scheduler : Nat) (source : Source) (copy : Machine)
  /-- A machine or an operator read a record. -/
  | copied (copy : Machine)
  | heard (h : Heartbeat)
  | registered (m : Machine)
  | reported (m : Machine)
  | released (m : Machine)
  | claimed (scheduler : Nat) (source : Source) (m : Machine)
  | finalized (scheduler : Nat) (m : Machine)
  deriving DecidableEq, Repr

variable {trace : List Event} {s after : Store} {e : Event} {id : String} {m : Machine}

/-- `Step trace s e after`: after a trace that led to the store `s`, `e` may happen and leaves the
store `after`. -/
inductive Step (trace : List Event) (s : Store) : Event → Store → Prop where
  | hear (h : Heartbeat) : Step trace s (.heard h) (s.putHeartbeat h)
  | register {m written : Machine} {after : Store} :
      s.register m = .ok (written, after) → Step trace s (.registered written) after
  | search (scheduler : Nat) (partition size : String) :
      Step trace s (.found scheduler (s.search (Query.waitingCandidates partition size))) s
  | choose {scheduler : Nat} {machines : List Machine} {copy : Machine} :
      .found scheduler machines ∈ trace → copy ∈ machines.filter (s.isAlive ·.id) →
      Step trace s (.candidate scheduler .search copy) s
  | check (scheduler : Nat) (id : String) {copy : Machine} :
      s.readUnclaimed id = .ok copy → Step trace s (.candidate scheduler .byId copy) s
  | claim {scheduler : Nat} {source : Source} {copy written : Machine} {after : Store} :
      .candidate scheduler source copy ∈ trace → s.claim copy = .ok (written, after) →
      Step trace s (.claimed scheduler source written) after
  | finalize {scheduler : Nat} {source : Source} {copy written : Machine} {after : Store}
      {a : Allocation} {tags : List String} :
      .claimed scheduler source copy ∈ trace →
      s.attachAllocation copy a tags = .ok (written, after) →
      Step trace s (.finalized scheduler written) after
  | read (id : String) {copy : Machine} :
      s.machine? id = some copy → Step trace s (.copied copy) s
  | report {copy written : Machine} {after : Store} :
      .copied copy ∈ trace → copy.isTaken = false →
      s.replace copy { copy with waiting := true } = .ok (written, after) →
      Step trace s (.reported written) after
  | release (id : String) {written : Machine} {after : Store} :
      s.release id = .ok (written, after) → Step trace s (.released written) after
  /-- A release whose read lies further back. -/
  | giveBack {copy written : Machine} {after : Store} :
      .copied copy ∈ trace → copy.isTaken = true →
      s.replaceCopy copy (Store.released copy) = .ok (written, after) →
      Step trace s (.released written) after

/-- `Run trace s`: the trace may happen on a store without records and leads to `s`. -/
inductive Run : List Event → Store → Prop where
  | start : Run [] .empty
  | step {trace : List Event} {s after : Store} {e : Event} :
      Run trace s → Step trace s e after → Run (trace ++ [e]) after

/-- Where an event stands in a trace with one more event. -/
theorem concat_eq_append_cons {last : Event} {past later : List Event}
    (split : trace ++ [last] = past ++ e :: later) :
    later = [] ∧ past = trace ∧ e = last ∨
      ∃ rest, later = rest ++ [last] ∧ trace = past ++ e :: rest := by
  rcases List.eq_nil_or_concat later with rfl | ⟨rest, final, rfl⟩
  · obtain ⟨same, sameEvent⟩ := List.append_inj' split rfl
    exact .inl ⟨rfl, same.symm, (List.cons.inj sameEvent).1.symm⟩
  · have regrouped : trace ++ [last] = (past ++ e :: rest) ++ [final] := by simpa using split
    obtain ⟨same, sameEvent⟩ := List.append_inj' regrouped rfl
    obtain rfl : last = final := (List.cons.inj sameEvent).1
    exact .inr ⟨rest, by simp, same⟩

/-- Every event of a run happened in a step from an earlier store. -/
theorem Run.moment (run : Run trace s) {past later : List Event}
    (split : trace = past ++ e :: later) :
    ∃ before after, Run past before ∧ Step past before e after := by
  induction run generalizing later with
  | start => simp at split
  | @step trace s after last run move ih =>
      rcases concat_eq_append_cons split with ⟨-, rfl, rfl⟩ | ⟨rest, -, shorter⟩
      · exact ⟨s, after, run, move⟩
      · exact ih shorter

/-! ### Calls without interruption -/

/-- Selecting and claiming a machine in one go is a search, a choice and a claim. -/
theorem Run.selectAndClaim (run : Run trace s) (scheduler : Nat)
    {project partition size : String} {tags : List String} {words : Placement.RandomWords}
    (claimed : s.selectAndClaim project partition size tags words = .ok (m, after)) :
    ∃ machines copy, Run (trace ++ [.found scheduler machines] ++
      [.candidate scheduler .search copy] ++ [.claimed scheduler .search m]) after := by
  obtain ⟨copy, words', selected, ofCopy⟩ := Store.exists_claim_of_selectAndClaim claimed
  have chosen : copy ∈ s.available partition size :=
    Placement.mem_of_mem_spread (Store.mem_spread_of_select selected)
  exact ⟨_, copy, ((run.step (.search scheduler partition size)).step
    (.choose List.mem_concat_self chosen)).step (.claim List.mem_concat_self ofCopy)⟩

/-- Claiming a machine by its id in one go is a check and a claim. -/
theorem Run.claimMachine (run : Run trace s) (scheduler : Nat)
    (claimed : s.claimMachine id = .ok (m, after)) :
    ∃ copy, Run (trace ++ [.candidate scheduler .byId copy] ++ [.claimed scheduler .byId m])
      after := by
  obtain ⟨copy, unclaimed, ofCopy⟩ := Store.claimMachine_eq_ok_iff.mp claimed
  exact ⟨copy, (run.step (.check scheduler id unclaimed)).step (.claim List.mem_concat_self ofCopy)⟩

/-! ### What a run writes -/

def Event.write? : Event → Option (Cause × Machine)
  | registered m => some (.registration, m)
  | reported m => some (.replacement, m)
  | released m => some (.release, m)
  | claimed _ _ m => some (.claim, m)
  | finalized _ m => some (.allocation, m)
  | found _ _ | candidate _ _ _ | copied _ | heard _ => none

def Event.Writes (id : String) (e : Event) : Prop := ∃ w, e.write? = some w ∧ w.2.id = id

def journalOf (trace : List Event) : List Entry :=
  trace.filterMap fun e => e.write?.map fun w => .wrote w.1 w.2

/-- The records a trace writes of a machine, oldest first. -/
def writesIn (id : String) (trace : List Event) : List Machine := writesOf id (journalOf trace)

theorem journalOf_append (trace more : List Event) :
    journalOf (trace ++ more) = journalOf trace ++ journalOf more := List.filterMap_append

theorem writesIn_append (id : String) (trace more : List Event) :
    writesIn id (trace ++ more) = writesIn id trace ++ writesIn id more := by
  simp [writesIn, journalOf_append, writesOf_append]

theorem length_writesIn_le (id : String) (before later : List Event) :
    (writesIn id before).length ≤ (writesIn id (before ++ later)).length := by
  rw [writesIn_append, List.length_append]
  exact Nat.le_add_right _ _

theorem writesIn_of_writes {w : Cause × Machine} (write : e.write? = some w) :
    writesIn w.2.id [e] = [w.2] := by
  simp [writesIn, journalOf, writesOf, write]

theorem writesIn_cons_of_writes {w : Cause × Machine} (write : e.write? = some w)
    (later : List Event) : writesIn w.2.id (e :: later) = w.2 :: writesIn w.2.id later := by
  rw [← List.singleton_append, writesIn_append, writesIn_of_writes write, List.singleton_append]

/-- A machine has no writes in a trace exactly when no event of it writes the machine. -/
theorem writesIn_eq_nil_iff : writesIn id trace = [] ↔ ∀ e ∈ trace, ¬ e.Writes id := by
  unfold writesIn writesOf journalOf
  rw [List.filterMap_filterMap, List.filterMap_eq_nil_iff]
  refine forall₂_congr fun e _ => ?_
  cases write : e.write? <;> simp [Event.Writes, write]

theorem deleted_notMem_journalOf (id : String) : .deleted id ∉ journalOf trace := by
  simp [journalOf]

/-- No step deletes, so a machine has one incarnation. -/
theorem incarnation_journalOf : incarnation id (journalOf trace) = writesIn id trace :=
  incarnation_append [] (deleted_notMem_journalOf id)

/-- A step writes what its event says. -/
theorem Step.recorded (move : Step trace s e after) : Recorded s (journalOf [e]) after := by
  cases move with
  | hear h => exact .nothing rfl
  | register h => exact .wrote (Store.wrote_of_register h) (.nothing rfl)
  | search => exact .nothing rfl
  | choose => exact .nothing rfl
  | check => exact .nothing rfl
  | claim _ h => exact .wrote (Store.wrote_of_claim h) (.nothing rfl)
  | finalize _ h => exact .wrote (Store.wrote_of_attachAllocation h) (.nothing rfl)
  | read => exact .nothing rfl
  | report _ _ h => exact .wrote (Store.wrote_of_replace h) (.nothing rfl)
  | release _ h => exact .wrote (Store.wrote_of_release h) (.nothing rfl)
  | giveBack _ _ h => exact .wrote (Store.wrote_of_replaceCopy h) (.nothing rfl)

/-- The accounts of every run are in order. -/
theorem Run.accounts (run : Run trace s) : Accounts (journalOf trace) s := by
  induction run with
  | start => exact .initial
  | step _ move ih =>
      rw [journalOf_append]
      exact ih.recorded move.recorded

/-- The stored record is the last one that was written. -/
theorem Run.machine?_eq (run : Run trace s) (id : String) :
    s.machine? id = (writesIn id trace).getLast? := by
  rw [run.accounts.stored, incarnation_journalOf]

theorem Run.mem_writesIn_of_stored (run : Run trace s) (found : s.machine? id = some m) :
    m ∈ writesIn m.id trace := by
  have same : m.id = id := run.accounts.id_of_stored found
  rw [same]
  exact List.mem_of_getLast? ((run.machine?_eq id).symm.trans found)

/-! ### Copies -/

/-- The copies an event puts into somebody's hands. -/
def Event.copies : Event → List Machine
  | found _ machines => machines
  | candidate _ _ copy | copied copy => [copy]
  | _ => []

/-- A copy in somebody's hands was written some time. -/
theorem Run.copy_written (run : Run trace s) (mem : e ∈ trace) {copy : Machine}
    (held : copy ∈ e.copies) : copy ∈ writesIn copy.id trace := by
  induction run generalizing e with
  | start => cases mem
  | @step trace s after last run move ih =>
      rw [writesIn_append]
      apply List.mem_append_left
      rcases List.mem_append.mp mem with mem | mem
      · exact ih mem held
      · obtain rfl : e = last := List.mem_singleton.mp mem
        cases move with
        | search =>
            obtain ⟨⟨_, found⟩, -⟩ := Store.mem_search.mp held
            exact run.mem_writesIn_of_stored found
        | choose found chosen =>
            obtain rfl := List.mem_singleton.mp held
            exact ih found ((List.mem_filter.mp chosen).1)
        | check _ _ unclaimed =>
            obtain rfl := List.mem_singleton.mp held
            exact run.mem_writesIn_of_stored (Store.readUnclaimed_eq_ok_iff.mp unclaimed).1
        | read _ found =>
            obtain rfl := List.mem_singleton.mp held
            exact run.mem_writesIn_of_stored found
        | _ => cases held

/-- As long as markers have not gone around, a copy that is current is the stored record. -/
theorem Run.eq_stored_of_current (run : Run trace s) (few : (writesIn id trace).length < 2 ^ 64)
    (mem : e ∈ trace) {copy : Machine} (held : copy ∈ e.copies) (same : copy.id = id)
    (current : s.IsCurrent copy) (stored : s.machine? id = some m) : copy = m := by
  subst same
  refine run.accounts.eq_stored_of_current ?_ ?_ current stored
  · rw [incarnation_journalOf]
    exact few
  · rw [incarnation_journalOf]
    exact run.copy_written mem held

end MachinePool.Scheduling
