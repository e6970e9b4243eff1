import MachinePool.Liveliness
import MachinePool.Network
import MachinePool.Query
import MachinePool.Store.Error
import MachinePool.Table

/-!
The inventory store: four tables of records, each record under its own key.

Machine records are written in two ways only. `register` puts a record in place
whatever was there before, and `replace` puts one in place of the copy the
caller holds, provided nobody wrote since that copy was read. Both set the
version marker one beyond the stored one, whatever marker the caller's record
carries. An operation that fails has no store to go on with, so nothing it did
can stay behind.
-/

namespace MachinePool

/-- The inventory: machines, networks and reports by id, leases by canonical address. -/
structure Store where
  machines : Table Machine
  networks : Table Network
  leases : Table Lease
  heartbeats : Table Heartbeat
  deriving DecidableEq, Repr

namespace Store

def empty : Store := ⟨.empty, .empty, .empty, .empty⟩

instance : Inhabited Store := ⟨empty⟩

/-! ### Machines -/

def machine? (s : Store) (id : String) : Option Machine := s.machines.get? id

def listMachines (s : Store) : List Machine := s.machines.values

/-- The machines a query matches, in the order of their ids. -/
def search (s : Store) (q : Query) : List Machine := s.listMachines.filter q.matches?

def putMachine (s : Store) (m : Machine) : Store :=
  { s with machines := s.machines.insert m.id m }

/-- The marker of the next write over a stored record. -/
def nextMarker : Option Machine → UInt64
  | none => 1
  | some previous => previous.changed + 1

/-- Registers a machine, over an earlier record of the same id if there is one. A machine that is
bound to a tenant cannot be registered. -/
def register (s : Store) (m : Machine) : Except StoreError (Machine × Store) :=
  if m.allocation.isSome then
    .error (.invalid m.id "a machine cannot be created when it is allocated")
  else
    let stored := { m with changed := nextMarker (s.machine? m.id) }
    .ok (stored, s.putMachine stored)

/-- Replaces the copy `old` of a stored record by `new`, if the stored record still carries the
copy's marker. -/
def replace (s : Store) (old new : Machine) : Except StoreError (Machine × Store) :=
  if old.id ≠ new.id then
    .error (.invalid old.id ("cannot replace machine with a record for " ++ new.id))
  else match s.machine? old.id with
    | none => .error (.notFound ("machine " ++ old.id))
    | some stored =>
      if stored.changed ≠ old.changed then
        .error (.conflict old.id old.changed stored.changed)
      else
        let written := { new with changed := stored.changed + 1 }
        .ok (written, s.putMachine written)

/-- Deletes a machine; the answer is whether it was there. -/
def deleteMachine (s : Store) (id : String) : Bool × Store :=
  (s.machines.contains id, { s with machines := s.machines.erase id })

/-! ### Reports -/

def putHeartbeat (s : Store) (h : Heartbeat) : Store :=
  { s with heartbeats := s.heartbeats.insert h.machine h }

def reportLiveliness (s : Store) (now : UInt64) (id : String) (l : Liveliness) : Store :=
  s.putHeartbeat { machine := id, liveliness := l, time := now }

def heartbeat? (s : Store) (id : String) : Option Heartbeat := s.heartbeats.get? id

def isAlive (s : Store) (id : String) : Bool :=
  (s.heartbeat? id).any (·.liveliness = .alive)

/-! ### Networks and leases -/

def putNetwork (s : Store) (n : Network) : Store :=
  { s with networks := s.networks.insert n.id n }

def network? (s : Store) (id : String) : Option Network := s.networks.get? id

def listNetworks (s : Store) : List Network := s.networks.values

/-- The private super networks of all partitions, in the order of their ids. -/
def superNetworks (s : Store) : List Network := s.listNetworks.filter (·.isPrivateSuper)

/-- Puts a lease in place of the one of the same address. -/
def putLease (s : Store) (l : Lease) : Store :=
  { s with leases := s.leases.insert l.key l }

def lease? (s : Store) (a : Address) : Option Lease := s.leases.get? a.text

/-- The leases out of a network, in the order of their canonical addresses. -/
def leasesOf (s : Store) (network : String) : List Lease :=
  s.leases.values.filter (·.network = network)

end Store

end MachinePool
