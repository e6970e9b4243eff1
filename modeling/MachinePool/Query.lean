import MachinePool.Machine

/-!
Searches for machines. Every populated field narrows the result, and a query
with no field populated matches every machine.

The four fields about the allocation (`project`, `allocationName`, `role`,
`networks`) match allocated machines only.
-/

namespace MachinePool

structure Query where
  id : Option String := none
  name : Option String := none
  partition : Option String := none
  size : Option String := none
  rack : Option String := none
  /-- Tags the machine must carry, all of them. -/
  tags : List String := []
  /-- Whether the machine must be allocated or must be free. -/
  allocated : Option Bool := none
  project : Option String := none
  allocationName : Option String := none
  role : Option Role := none
  /-- Networks the allocation must be attached to, all of them. -/
  networks : List String := []
  availability : Option Availability := none
  waiting : Option Bool := none
  preallocated : Option Bool := none
  deriving DecidableEq, Repr

namespace Query

/-- Whether a wanted value, if there is one, is the one at hand. -/
def meets {α : Type} [DecidableEq α] (wanted : Option α) (actual : α) : Bool :=
  wanted.all (· = actual)

/-- Whether the query asks for anything only an allocation has. -/
def asksAllocation (q : Query) : Bool :=
  q.project.isSome || q.allocationName.isSome || q.role.isSome || !q.networks.isEmpty

def matchesAllocation (q : Query) (a : Allocation) : Bool :=
  meets q.project a.project && meets q.allocationName a.name && meets q.role a.role &&
    q.networks.all fun network => a.attachments.any (·.network = network)

def matches? (q : Query) (m : Machine) : Bool :=
  meets q.id m.id && meets q.name m.name && meets q.partition m.partition &&
    meets q.size m.size && meets q.rack m.rack &&
    q.tags.all (m.tags.contains ·) &&
    meets q.allocated m.allocation.isSome &&
    (!q.asksAllocation || m.allocation.any q.matchesAllocation) &&
    meets q.availability m.state.value && meets q.waiting m.waiting &&
    meets q.preallocated m.preallocated

/-- Free, available machines of a size that wait in a partition and are not claimed. -/
def waitingCandidates (partition size : String) : Query :=
  { partition := some partition, size := some size, allocated := some false,
    availability := some .available, waiting := some true, preallocated := some false }

def projectMachines (project partition : String) : Query :=
  { project := some project, partition := some partition }

end Query

end MachinePool
