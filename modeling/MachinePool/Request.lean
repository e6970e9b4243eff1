import MachinePool.Machine

/-!
What a tenant asks for when allocating a machine.
-/

namespace MachinePool

structure NetworkRequest where
  network : String
  /-- Absent means that an address is acquired automatically. -/
  autoAcquire : Option Bool
  deriving DecidableEq, Repr

/-- Whether automatic acquisition was left on. -/
def NetworkRequest.wantsAuto (r : NetworkRequest) : Bool := r.autoAcquire.getD true

structure Request where
  name : String := ""
  creator : String := ""
  project : String := ""
  role : Role := .machine
  /-- The machine to allocate, instead of placing one. -/
  machine : Option String := none
  partition : Option String := none
  size : Option String := none
  networks : List NetworkRequest := []
  /-- Addresses of requested networks, as texts. -/
  addresses : List String := []
  sshKeys : List String := []
  /-- Tags that steer the placement. -/
  tags : List String := []
  deriving DecidableEq, Repr

/-- A text that is present and not empty. -/
def givenText (text : Option String) : Option String := text.filter (· ≠ "")

namespace Request

def namedMachine (r : Request) : Option String := givenText r.machine

def namedPartition (r : Request) : Option String := givenText r.partition

def namedSize (r : Request) : Option String := givenText r.size

end Request

end MachinePool
