import MachinePool.Allocation.Claim
import MachinePool.Allocation.Plan
import MachinePool.Placement.Draw
import MachinePool.Placement.Spread

/-!
The allocation of a machine: selecting one, claiming it and binding it to the
tenant of a request.

Selecting only reads. A claim and a finalization are one write each, and a copy
that goes from one step to the next may be outdated by the time it is used;
what happens in between is up to the callers that run at the same time. An
allocation whose last step fails releases its claim again.
-/

namespace MachinePool.Store

/-! ### Selecting -/

/-- The machines that can be handed out: free, available, waiting, unclaimed and alive. -/
def candidates (s : Store) (partition size : String) : Except AllocationError (List Machine) :=
  match (s.search (Query.waitingCandidates partition size)).filter (s.isAlive ·.id) with
  | [] => .error (.noMachineAvailable partition size)
  | machines => .ok machines

/-- Draws a candidate that keeps the machines a project holds spread, with the words that are
left. -/
def drawSpread (available held : List Machine) (partition size : String) (tags : List String)
    (words : Placement.RandomWords) : Except AllocationError (Machine × Placement.RandomWords) :=
  match Placement.draw (Placement.spread available held tags) words with
  | (some chosen, words) => .ok (chosen, words)
  | (none, _) => .error (.noMachineAvailable partition size)

/-- Selects a candidate that keeps the project spread, with the words that are left. -/
def select (s : Store) (project partition size : String) (tags : List String)
    (words : Placement.RandomWords) :
    Except AllocationError (Machine × Placement.RandomWords) := do
  let available ← s.candidates partition size
  let held := s.search (Query.projectMachines project partition)
  drawSpread available held partition size tags words

def selectAndClaim (s : Store) (project partition size : String) (tags : List String)
    (words : Placement.RandomWords) : Except AllocationError (Machine × Store) := do
  let (chosen, _) ← s.select project partition size tags words
  s.claim chosen

/-! ### Allocating -/

def allocationOf (now : UInt64) (r : Request) (plan : Plan) : Allocation where
  name := r.name
  creator := r.creator
  project := r.project
  role := r.role
  sshKeys := r.sshKeys
  attachments := plan.attachments
  createdAt := now

/-- Binds a claimed machine to the tenant of a request. -/
def finalize (s : Store) (now : UInt64) (copy : Machine) (r : Request) (plan : Plan) :
    Except AllocationError (Machine × Store) :=
  s.attachAllocation copy (allocationOf now r plan) r.tags

/-- The store after a claim is given up; if that fails too, the store is as it was. -/
def unwind (s : Store) (id : String) : Store :=
  match s.release id with
  | .ok (_, s) => s
  | .error _ => s

/-- The partition of a request: that of the machine it names, or the one it names itself. -/
def targetPartition (s : Store) (r : Request) : Except AllocationError String :=
  match r.namedMachine with
  | none => .ok (r.partition.getD "")
  | some id =>
    match s.machine? id with
    | some m => .ok m.partition
    | none => .error (.machineNotFound id)

/-- Checks and plans a request; nothing is written. -/
def prepare (s : Store) (r : Request) : Except AllocationError (String × Plan) := do
  r.validate
  let partition ← s.targetPartition r
  let plan ← s.plan r partition s.superNetworks
  return (partition, plan)

/-- Claims the machine a request names, or one that is selected for it. -/
def claimFor (s : Store) (r : Request) (partition : String) (words : Placement.RandomWords) :
    Except AllocationError (Machine × Store) :=
  match r.namedMachine with
  | some id => s.claimMachine id
  | none => s.selectAndClaim r.project partition (r.size.getD "") r.tags words

def finalizeOrUnwind (s : Store) (now : UInt64) (claimed : Machine) (r : Request) (plan : Plan) :
    Except AllocationError Machine × Store :=
  match s.finalize now claimed r plan with
  | .ok (m, s) => (.ok m, s)
  | .error e => (.error e, s.unwind claimed.id)

/-- Allocates a machine for a request at a time: plans, claims, finalizes. -/
def allocate (s : Store) (now : UInt64) (r : Request) (words : Placement.RandomWords) :
    Except AllocationError Machine × Store :=
  match s.prepare r with
  | .error e => (.error e, s)
  | .ok (partition, plan) =>
    match s.claimFor r partition words with
    | .error e => (.error e, s)
    | .ok (claimed, s) => s.finalizeOrUnwind now claimed r plan

end MachinePool.Store
