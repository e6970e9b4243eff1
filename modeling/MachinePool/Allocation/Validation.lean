import MachinePool.Allocation.Error
import MachinePool.Request
import MachinePool.SshKey
import MachinePool.Text.Quoted

/-!
The structure of a request, checked before anything is looked up. The checks
have a fixed order, and the first one that fails is reported.
-/

namespace MachinePool.Request

def illegalAddressMessage (spelling : String) : String :=
  Text.quoted spelling ++ " is not a valid IP address"

def readAddress (spelling : String) : Except AllocationError Address :=
  match Address.ofText? spelling with
  | some a => .ok a
  | none => .error (.invalidRequest (illegalAddressMessage spelling))

/-- Checks that every text is an address and that none of them is in `seen` or comes twice. -/
def checkAddresses (seen : List Address) : List String → Except AllocationError Unit
  | [] => .ok ()
  | spelling :: rest => do
    let a ← readAddress spelling
    if a ∈ seen then
      .error (.invalidRequest ("ip " ++ a.text ++ " is given more than once"))
    else checkAddresses (a :: seen) rest

def checkKeys : List String → Except AllocationError Unit
  | [] => .ok ()
  | line :: rest =>
    match SshKey.check line with
    | .ok () => checkKeys rest
    | .error _ => .error (.invalidRequest ("invalid public SSH key: " ++ line))

def require (condition : Bool) (reason : String) : Except AllocationError Unit :=
  if condition then .ok () else .error (.invalidRequest reason)

/-- Whether a firewall can get an address: it is given one or acquires one. -/
def firewallReachable (r : Request) : Bool :=
  r.role ≠ .firewall || !r.addresses.isEmpty || r.networks.any (·.wantsAuto)

/-- Whether there are as many addresses as networks that acquire none. -/
def enoughAddresses (r : Request) : Bool :=
  r.networks.countP (·.autoAcquire = some false) ≤ r.addresses.length

def validate (r : Request) : Except AllocationError Unit := do
  require (r.project ≠ "") "project id must be specified"
  require (r.creator ≠ "") "creator should be specified"
  require (r.namedMachine.isSome || r.namedSize.isSome)
    "when no machine id is given, a size id must be specified"
  require (r.namedMachine.isSome || r.namedPartition.isSome)
    "when no machine id is given, a partition id must be specified"
  checkAddresses [] r.addresses
  checkKeys r.sshKeys
  require r.firewallReachable
    "when no ip is given at least one auto acquire network must be specified"
  require r.enoughAddresses "missing ip(s) for network(s) without automatic ip allocation"

end MachinePool.Request
