import MachinePool.Allocation.Retry
import MachinePool.Proofs.Allocation.Uninterrupted

/-!
Claiming again after a lost race ends, and claims once at most.

A round is described without its recursion (`IsRound`): what it reads, what
others make of the store between its steps, and what it then writes. Rounds
follow one another when each starts from the store that others leave after the one
before and with the words it left (`RoundsFrom`). Nothing is assumed of the other
callers.

* `claims_once_within_attempts`: a call makes a row of such rounds, one at least
  and no more than it may. All but the last one lost their race, and the last one
  loses it only if there may be no more. The call writes one machine if it
  succeeds and none if it fails.
-/

namespace MachinePool

/-- Only a lost race counts as a conflict. -/
theorem AllocationError.category_eq_conflict_iff {e : AllocationError} :
    e.category = .conflict ↔ ∃ id, e = .concurrentModification id := by
  cases e <;> simp [category]

namespace Store

variable {d : Demand} {others : Interference} {k : Nat} {s : Store}
variable {words left : Placement.RandomWords}

/-! ### One round -/

structure Round where
  outcome : Except AllocationError Machine
  /-- The store that the round claims in, or that it last read where it comes to no claim. -/
  reached : Store
  /-- What the round itself writes. -/
  written : List Entry
  after : Store

namespace Round

/-- Another caller was faster. -/
def Lost (r : Round) : Prop := ∃ id, r.outcome = .error (.concurrentModification id)

/-- What a round with an outcome is expected to write. -/
def claimOf : Except AllocationError Machine → List Entry
  | .ok m => [.wrote .claim m]
  | .error _ => []

/-- A round writes the machine it answers and nothing else, and nothing if it fails. -/
structure WritesOutcome (r : Round) : Prop where
  written : r.written = claimOf r.outcome
  recorded : Recorded r.reached r.written r.after
  failed : ∀ e, r.outcome = .error e → r.after = r.reached

end Round

/-- The `k`-th round of a call that starts from a store with some words, and the words it leaves. -/
inductive IsRound (d : Demand) (others : Interference) (k : Nat) (s : Store)
    (words : Placement.RandomWords) : Round → Placement.RandomWords → Prop where
  | noCandidate {e : AllocationError} :
      s.candidates d.partition d.size = .error e →
      IsRound d others k s words ⟨.error e, s, [], s⟩ words
  | noChoice {available : List Machine} {selecting : Store} {e : AllocationError} :
      s.candidates d.partition d.size = .ok available →
      selecting = others.duringSelection k s →
      drawSpread available (selecting.search (Query.projectMachines d.project d.partition))
        d.partition d.size d.tags words = .error e →
      IsRound d others k s words ⟨.error e, selecting, [], selecting⟩ words
  | claim {available : List Machine} {selecting reached : Store} {chosen : Machine}
      {left : Placement.RandomWords} :
      s.candidates d.partition d.size = .ok available →
      selecting = others.duringSelection k s →
      drawSpread available (selecting.search (Query.projectMachines d.project d.partition))
        d.partition d.size d.tags words = .ok (chosen, left) →
      reached = others.beforeClaim k selecting →
      IsRound d others k s words
        ⟨(reached.claim chosen).map (·.1), reached,
          (settle .claim reached (reached.claim chosen)).1,
          (settle .claim reached (reached.claim chosen)).2⟩ left

/-- Whatever other callers do, a round writes what it answers. -/
theorem IsRound.writesOutcome {r : Round} (round : IsRound d others k s words r left) :
    r.WritesOutcome := by
  cases round with
  | noCandidate failed => exact ⟨rfl, .nothing rfl, fun _ _ => rfl⟩
  | noChoice searched selecting failed => exact ⟨rfl, .nothing rfl, fun _ _ => rfl⟩
  | @claim available selecting reached chosen left searched others drawn reach =>
      have recorded := recorded_settle .claim fun m after =>
        @wrote_of_claim reached after chosen m
      refine ⟨?written, recorded, ?failed⟩
      case written => cases reached.claim chosen <;> rfl
      case failed =>
        intro e failed
        cases claimed : reached.claim chosen with
        | error e' => rfl
        | ok written =>
            rw [claimed] at failed
            cases failed

/-- What is computed as a round is one. -/
theorem exists_isRound (d : Demand) (others : Interference) (k : Nat) (s : Store)
    (words : Placement.RandomWords) :
    ∃ r left, IsRound d others k s words r left ∧
      s.claimRound d others k words = (r.outcome, r.after, left) := by
  cases searched : s.candidates d.partition d.size with
  | error e =>
      refine ⟨_, _, .noCandidate searched, ?_⟩
      rw [claimRound, searched]
  | ok available =>
      generalize selecting : others.duringSelection k s = between
      cases drawn : drawSpread available
          (between.search (Query.projectMachines d.project d.partition))
          d.partition d.size d.tags words with
      | error e =>
          refine ⟨_, _, .noChoice searched selecting.symm drawn, ?_⟩
          simp only [claimRound, searched, selecting, drawn]
      | ok choice =>
          obtain ⟨chosen, left⟩ := choice
          refine ⟨_, _, .claim searched selecting.symm drawn rfl, ?_⟩
          simp only [claimRound, searched, selecting, drawn]
          cases (others.beforeClaim k between).claim chosen <;> rfl

/-! ### Rounds in a row -/

/-- Rounds of a call from the `k`-th on, whatever they end with. -/
inductive RoundsFrom (d : Demand) (others : Interference) :
    Nat → Store → Placement.RandomWords → List Round → Prop where
  | one {k : Nat} {s : Store} {words left : Placement.RandomWords} {r : Round} :
      IsRound d others k s words r left → RoundsFrom d others k s words [r]
  | more {k : Nat} {s : Store} {words left : Placement.RandomWords} {r : Round}
      {rounds : List Round} :
      IsRound d others k s words r left →
      RoundsFrom d others (k + 1) (others.afterRound k r.after) left rounds →
      RoundsFrom d others k s words (r :: rounds)

theorem RoundsFrom.writesOutcome {rounds : List Round}
    (row : RoundsFrom d others k s words rounds) : ∀ r ∈ rounds, r.WritesOutcome := by
  induction row with
  | one round => exact List.forall_mem_singleton.mpr round.writesOutcome
  | more round _ ih => exact List.forall_mem_cons.mpr ⟨round.writesOutcome, ih⟩

/-- Rounds are made as long as they are lost and there may be more. -/
theorem exists_roundsFrom (d : Demand) (others : Interference) (more k : Nat) (s : Store)
    (words : Placement.RandomWords) :
    ∃ earlier last, RoundsFrom d others k s words (earlier ++ [last]) ∧
      earlier.length ≤ more ∧ (∀ r ∈ earlier, r.Lost) ∧
      claimFromRound d others more k s words = (last.outcome, last.after) ∧
      (last.Lost → earlier.length = more) := by
  induction more generalizing k s words with
  | zero =>
      obtain ⟨r, left, round, computed⟩ := exists_isRound d others k s words
      refine ⟨[], r, .one round, Nat.le_refl 0, List.forall_mem_nil _, ?_, fun _ => rfl⟩
      rw [claimFromRound, computed]
  | succ more ih =>
      obtain ⟨r, left, round, computed⟩ := exists_isRound d others k s words
      by_cases lost : r.Lost
      · obtain ⟨earlier, last, row, bound, allLost, result, exhausted⟩ :=
          ih (k + 1) (others.afterRound k r.after) left
        refine ⟨r :: earlier, last, .more round row, Nat.succ_le_succ bound,
          List.forall_mem_cons.mpr ⟨lost, allLost⟩, ?_, fun again => ?_⟩
        · obtain ⟨id, failed⟩ := lost
          rw [failed] at computed
          simp only [claimFromRound, computed, AllocationError.category, if_true, result]
        · rw [List.length_cons, exhausted again]
      · refine ⟨[], r, .one round, Nat.zero_le _, List.forall_mem_nil _, ?_,
          fun again => absurd again lost⟩
        cases outcome : r.outcome with
        | ok m => simp only [claimFromRound, computed, outcome]
        | error e =>
            have final : ¬ e.category = .conflict := fun conflict => by
              obtain ⟨id, rfl⟩ := AllocationError.category_eq_conflict_iff.mp conflict
              exact lost ⟨id, outcome⟩
            simp only [claimFromRound, computed, outcome, if_neg final]

/-- Only the last round of a call writes anything. -/
theorem flatMap_written {earlier : List Round} {last : Round}
    (row : RoundsFrom d others k s words (earlier ++ [last])) (lost : ∀ r ∈ earlier, r.Lost) :
    (earlier ++ [last]).flatMap (·.written) = Round.claimOf last.outcome := by
  have writes := List.forall_mem_append.mp row.writesOutcome
  have nothing : earlier.flatMap (·.written) = [] := by
    rw [List.flatMap_eq_nil_iff]
    intro r mem
    obtain ⟨id, failed⟩ := lost r mem
    rw [(writes.1 r mem).written, failed]
    rfl
  rw [List.flatMap_append, nothing, List.flatMap_singleton, List.nil_append]
  exact (writes.2 last (List.mem_singleton_self last)).written

end Store

open Store

/-- Whatever others write between the steps of a call and between its rounds, it makes one round at
least and no more than it may, a further one only after a lost race, and answers what the last one
ends with. That is a lost race only if all rounds that it may make were lost. Each round writes what
it answers, so the call writes one machine in all if it succeeds and none if it fails. -/
theorem claims_once_within_attempts (attempts : UInt32) (d : Demand) (others : Interference)
    (s : Store) (words : Placement.RandomWords) :
    let result := s.claimWithRetry attempts d others words
    ∃ earlier last, RoundsFrom d others 0 s words (earlier ++ [last]) ∧
      earlier.length + 1 ≤ max 1 attempts.toNat ∧ (∀ r ∈ earlier, r.Lost) ∧
      result = (last.outcome, last.after) ∧
      (∀ id, result.1 = .error (.concurrentModification id) →
        earlier.length + 1 = max 1 attempts.toNat ∧ ∀ r ∈ earlier ++ [last], r.Lost) ∧
      (∀ r ∈ earlier ++ [last], r.WritesOutcome) ∧
      (earlier ++ [last]).flatMap (·.written) = Round.claimOf result.1 := by
  intro result
  obtain ⟨earlier, last, row, bound, lost, ends, exhausted⟩ :=
    exists_roundsFrom d others (attempts.toNat - 1) 0 s words
  have answered : result.1 = last.outcome := congrArg Prod.fst ends
  refine ⟨earlier, last, row, by omega, lost, ends, ?conflict, row.writesOutcome, ?written⟩
  case conflict =>
    intro id conflict
    have lastLost : last.Lost := ⟨id, answered.symm.trans conflict⟩
    refine ⟨by rw [exhausted lastLost]; omega, ?_⟩
    exact List.forall_mem_append.mpr ⟨lost, List.forall_mem_singleton.mpr lastLost⟩
  case written =>
    rw [answered]
    exact flatMap_written row lost

/-- Another caller that registers a machine anew before the first claim. -/
def Interference.registersFirst (m : Machine) : Interference :=
  { Interference.none with
    beforeClaim := fun k s => if k = 0 then ((Operation.register m).effect s).2 else s }

/-- A call that loses its first race claims the machine in its second round, if it may make one, and
reports the lost race otherwise. -/
theorem second_round_claims_after_lost_race :
    let s := (history [.register (Machine.idle "m"), .putHeartbeat ⟨"m", .alive, 0⟩]).store
    let d : Demand := ⟨"x", "p", "s", []⟩
    let others := Interference.registersFirst (Machine.idle "m")
    let claimed := { Machine.idle "m" with preallocated := true, changed := 3 }
    (∃ earlier last, RoundsFrom d others 0 s ⟨[], 0⟩ (earlier ++ [last]) ∧
      earlier.length + 1 ≤ 2 ∧ last.outcome = .ok claimed ∧
      (earlier ++ [last]).flatMap (·.written) = [.wrote .claim claimed]) ∧
    ∃ earlier last, RoundsFrom d others 0 s ⟨[], 0⟩ (earlier ++ [last]) ∧
      earlier.length + 1 = 1 ∧ (∀ r ∈ earlier ++ [last], r.Lost) ∧
      (earlier ++ [last]).flatMap (·.written) = [] := by
  intro s d others claimed
  constructor
  · have answered : (s.claimWithRetry 2 d others ⟨[], 0⟩).1 = .ok claimed := by decide
    obtain ⟨earlier, last, row, bound, -, result, -, -, written⟩ :=
      claims_once_within_attempts 2 d others s ⟨[], 0⟩
    rw [answered] at written
    exact ⟨earlier, last, row, bound, by rw [← answered, result], written⟩
  · have answered : (s.claimWithRetry 0 d others ⟨[], 0⟩).1 =
        .error (.concurrentModification "m") := by decide
    obtain ⟨earlier, last, row, -, -, -, conflict, -, written⟩ :=
      claims_once_within_attempts 0 d others s ⟨[], 0⟩
    obtain ⟨once, lost⟩ := conflict "m" answered
    rw [answered] at written
    exact ⟨earlier, last, row, once, lost, written⟩

end MachinePool
