import MachinePool.Address

/-!
Physical machines of the inventory and their binding to a tenant.

A machine waits in the pool, is claimed for a tenant and then carries the
tenant's allocation until it is released. The version marker `changed` counts
the writes of its record and is what a writer's copy is compared with.
-/

namespace MachinePool

/-! ### Attachments -/

/-- What a requested network is for the machine it is attached to. -/
inductive AttachmentType where
  | privatePrimaryUnshared
  | privatePrimaryShared
  | privateSecondaryShared
  | external
  deriving DecidableEq, Repr

namespace AttachmentType

/-- Whether the network connects the machine inside its tenant's private networks. -/
def isPrivate (t : AttachmentType) : Bool := t != external

/-- Whether the network is the one main private network of the machine. -/
def isPrimary : AttachmentType → Bool
  | privatePrimaryUnshared | privatePrimaryShared => true
  | privateSecondaryShared | external => false

end AttachmentType

structure Attachment where
  network : String
  addresses : List Address
  autoAcquire : Bool
  type : AttachmentType
  deriving DecidableEq, Repr

/-! ### Allocations -/

inductive Role where
  | machine
  | firewall
  deriving DecidableEq, Repr

instance : Inhabited Role := ⟨.machine⟩

def Role.word : Role → String
  | machine => "machine"
  | firewall => "firewall"

/-- The binding of a machine to a tenant. -/
structure Allocation where
  name : String
  creator : String
  project : String
  role : Role
  sshKeys : List String
  attachments : List Attachment
  createdAt : UInt64
  deriving DecidableEq, Repr

/-! ### Machines -/

/-- Whether the operator lets a machine be handed out. -/
inductive Availability where
  | available
  | reserved
  | locked
  deriving DecidableEq, Repr

structure AdminState where
  value : Availability
  description : String
  deriving DecidableEq, Repr

structure Machine where
  id : String
  name : String
  partition : String
  size : String
  rack : String
  state : AdminState
  /-- Set by the machine itself while it idles in the pool. -/
  waiting : Bool
  /-- Set by a claim, before the allocation is there. -/
  preallocated : Bool
  /-- Present while the machine is bound to a tenant. -/
  allocation : Option Allocation
  tags : List String
  /-- How often the record was written. -/
  changed : UInt64
  deriving DecidableEq, Repr

namespace Machine

/-- Whether no tenant holds the machine. -/
def isFree (m : Machine) : Bool := m.allocation.isNone

def project? (m : Machine) : Option String := m.allocation.map (·.project)

end Machine

end MachinePool
