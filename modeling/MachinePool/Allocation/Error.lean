import MachinePool.Address
import MachinePool.Network
import MachinePool.Store.Error

/-!
Why an allocation fails, with the texts tenants and operators are shown, and
what a caller can do about it.
-/

namespace MachinePool

/-- What a failure means for the caller. -/
inductive ErrorCategory where
  /-- No live, free machine matches. -/
  | noCapacity
  /-- Another caller was faster. -/
  | conflict
  /-- The request itself is unacceptable. -/
  | invalidRequest
  /-- The store failed. -/
  | internal
  deriving DecidableEq, Repr

inductive AllocationError where
  | noMachineAvailable (partition size : String)
  | concurrentModification (machine : String)
  | machineNotFound (machine : String)
  | machineAlreadyAllocated (machine : String)
  | machineNotClaimed (machine : String)
  | invalidRequest (reason : String)
  | forbiddenNetworkKind (network : String) (kind : NetworkKind)
  | duplicateNetwork
  | networkNotFound (network : String)
  | leaseNotFound (address : Address)
  | addressOutsideNetworks (address : Address)
  | foreignAddress (address : Address) (owner project : String)
  | noPrivateSuperNetwork (partition : String)
  | noPrivateNetwork
  | multiplePrimaryNetworks
  | multiplePrivateNetworks
  | multipleSharedNetworks
  | foreignPrivateNetwork (network : String)
  | privateNetworkElsewhere (network : String)
  | missingAddress (network : String) (kind : NetworkKind)
  | store (error : StoreError)
  deriving DecidableEq, Repr

namespace AllocationError

def message : AllocationError → String
  | noMachineAvailable partition size =>
    "no machine available in partition " ++ partition ++ " with size " ++ size
  | concurrentModification machine => "machine " ++ machine ++ " was modified concurrently"
  | machineNotFound machine => "machine not found: " ++ machine
  | machineAlreadyAllocated machine =>
    "the machine \"" ++ machine ++ "\" is already allocated"
  | machineNotClaimed machine =>
    "the machine \"" ++ machine ++ "\" is not claimed or already allocated"
  | invalidRequest reason => reason
  | forbiddenNetworkKind _ kind =>
    kind.displayName ++ " networks are not allowed to be set explicitly"
  | duplicateNetwork => "given network ids are not unique"
  | networkNotFound network => "network not found: " ++ network
  | leaseNotFound address => "ip not found: " ++ address.text
  | addressOutsideNetworks address =>
    "given ip " ++ address.text ++ " is not in any of the given networks"
  | foreignAddress address owner project =>
    "given ip " ++ address.text ++ " with project id " ++ owner ++
      " does not belong to the project of this allocation: " ++ project
  | noPrivateSuperNetwork partition =>
    "partition " ++ partition ++ " has no private super network"
  | noPrivateNetwork => "no private network given"
  | multiplePrimaryNetworks =>
    "multiple private networks are specified but there must be only one primary private " ++
      "network that must not be shared"
  | multiplePrivateNetworks =>
    "machines are not allowed to be placed into multiple private networks"
  | multipleSharedNetworks =>
    "firewalls are not allowed to be placed into multiple private, shared networks"
  | foreignPrivateNetwork _ =>
    "the given private network does not belong to the project, which is not allowed"
  | privateNetworkElsewhere network =>
    "private network " ++ network ++
      " must be located in the partition where the machine is going to be placed"
  | missingAddress network kind =>
    "the " ++ kind.displayName ++ " network " ++ network ++
      " has no auto ip acquisition, but no suitable IPs were provided"
  | store error => "state store error: " ++ error.message

def category : AllocationError → ErrorCategory
  | noMachineAvailable _ _ => .noCapacity
  | concurrentModification _ => .conflict
  | store _ => .internal
  | _ => .invalidRequest

/-- Whether selecting again may succeed. -/
def isRetryable (e : AllocationError) : Bool :=
  e.category = .noCapacity || e.category = .conflict

/-- A failure of the store, as the allocation reports it: an outdated copy is a lost race. -/
def ofStoreError : StoreError → AllocationError
  | .conflict key _ _ => concurrentModification key
  | error => store error

end AllocationError

end MachinePool
