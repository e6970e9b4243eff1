import MachinePool.Allocation.Error
import MachinePool.Store.Basic

/-!
Claiming a machine, binding it to a tenant and returning it to the pool.

Each operation is one write that compares versions: it succeeds only if nobody
wrote the machine since the copy in hand was read. There is no other lock.
-/

namespace MachinePool.Store

/-- Replaces a copy, with failures as an allocation reports them. -/
def replaceCopy (s : Store) (old new : Machine) : Except AllocationError (Machine × Store) :=
  match s.replace old new with
  | .ok written => .ok written
  | .error (.notFound _) => .error (.machineNotFound old.id)
  | .error e => .error (AllocationError.ofStoreError e)

def claim (s : Store) (copy : Machine) : Except AllocationError (Machine × Store) :=
  s.replaceCopy copy { copy with preallocated := true }

/-- The machine with an id, if nobody holds or has claimed it. -/
def readUnclaimed (s : Store) (id : String) : Except AllocationError Machine :=
  match s.machine? id with
  | none => .error (.machineNotFound id)
  | some m =>
    if !m.isFree || m.preallocated then .error (.machineAlreadyAllocated m.id) else .ok m

def claimMachine (s : Store) (id : String) : Except AllocationError (Machine × Store) := do
  let copy ← s.readUnclaimed id
  s.claim copy

/-- Tags with those of `more` appended that are not there yet. -/
def mergeTags (tags more : List String) : List String :=
  more.foldl (fun tags tag => if tag ∈ tags then tags else tags ++ [tag]) tags

def allocated (copy : Machine) (a : Allocation) (tags : List String) : Machine :=
  { copy with allocation := some a, waiting := false, tags := mergeTags copy.tags tags }

/-- Attaches an allocation to a claimed machine and tags it. -/
def attachAllocation (s : Store) (copy : Machine) (a : Allocation) (tags : List String) :
    Except AllocationError (Machine × Store) :=
  if !copy.preallocated || copy.allocation.isSome then .error (.machineNotClaimed copy.id)
  else s.replaceCopy copy (allocated copy a tags)

/-- The record of a machine that went back to the pool. -/
def released (m : Machine) : Machine :=
  { m with allocation := none, tags := [], waiting := false, preallocated := false }

def release (s : Store) (id : String) : Except AllocationError (Machine × Store) :=
  match s.machine? id with
  | none => .error (.machineNotFound id)
  | some m =>
    if !m.preallocated && m.isFree then .error (.machineNotClaimed m.id)
    else s.replaceCopy m (released m)

end MachinePool.Store
