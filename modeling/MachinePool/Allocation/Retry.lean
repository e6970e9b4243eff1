import MachinePool.Allocation.Engine

/-!
Selecting and claiming again after a lost race.

Other callers may write to the store between any two of a round's steps, the
reading of the candidates, the reading of the project's machines and the claim,
and between two rounds. What they do is given as an `Interference`, by the
number of the round; a caller that has the store for itself meets none
(`Interference.none`).
-/

namespace MachinePool

/-- What other callers do to the store while rounds are made. -/
structure Interference where
  /-- After a round read the candidates, before it reads the project's machines. -/
  duringSelection : Nat → Store → Store
  /-- Between the selection and the claim of a round. -/
  beforeClaim : Nat → Store → Store
  /-- Between a lost round and the next one. -/
  afterRound : Nat → Store → Store

def Interference.none : Interference := ⟨fun _ s => s, fun _ s => s, fun _ s => s⟩

namespace Store

/-- What a caller that allocates asks for. -/
structure Demand where
  project : String
  partition : String
  size : String
  tags : List String
  deriving DecidableEq, Repr

/-- The outcome of one round of selecting and claiming, the store after it and the words that are
left. -/
def claimRound (s : Store) (d : Demand) (others : Interference) (round : Nat)
    (words : Placement.RandomWords) :
    Except AllocationError Machine × Store × Placement.RandomWords :=
  match s.candidates d.partition d.size with
  | .error e => (.error e, s, words)
  | .ok available =>
    let s := others.duringSelection round s
    let held := s.search (Query.projectMachines d.project d.partition)
    match drawSpread available held d.partition d.size d.tags words with
    | .error e => (.error e, s, words)
    | .ok (chosen, words) =>
      let s := others.beforeClaim round s
      match s.claim chosen with
      | .ok (m, s) => (.ok m, s, words)
      | .error e => (.error e, s, words)

/-- Makes a round, and up to `more` further ones as long as the race is lost. -/
def claimFromRound (d : Demand) (others : Interference) :
    (more round : Nat) → Store → Placement.RandomWords → Except AllocationError Machine × Store
  | 0, round, s, words =>
    let (outcome, s, _) := s.claimRound d others round words
    (outcome, s)
  | more + 1, round, s, words =>
    match s.claimRound d others round words with
    | (.ok m, s, _) => (.ok m, s)
    | (.error e, s, words) =>
      if e.category = .conflict then
        claimFromRound d others more (round + 1) (others.afterRound round s) words
      else (.error e, s)

/-- Selects and claims in up to `attempts` rounds, and in one at least. -/
def claimWithRetry (s : Store) (attempts : UInt32) (d : Demand) (others : Interference)
    (words : Placement.RandomWords) : Except AllocationError Machine × Store :=
  claimFromRound d others (attempts.toNat - 1) 0 s words

end Store

end MachinePool
