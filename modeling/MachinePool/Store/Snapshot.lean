import MachinePool.Record.Network
import MachinePool.Store.Basic

/-!
The text a store is kept in between runs: a JSON object with the records of each
table in the order of their keys.
-/

namespace MachinePool.Store

open Json

def toJson (s : Store) : Json :=
  record [("machines", list Machine.toJson s.machines.values),
    ("networks", list Network.toJson s.networks.values),
    ("ips", list Lease.toJson s.leases.values),
    ("provisioning_events", list Heartbeat.toJson s.heartbeats.values)]

def ofJson? (j : Json) : Option Store := do
  let fields ← fields? ["machines", "networks", "ips", "provisioning_events"] j
  let machines ← fields.required "machines" (list? Machine.ofJson?)
  let networks ← fields.required "networks" (list? (Network.ofJson? 124))
  let leases ← fields.required "ips" (list? Lease.ofJson?)
  let heartbeats ← fields.required "provisioning_events" (list? Heartbeat.ofJson?)
  some
    { machines := Table.ofList (machines.map fun m => (m.id, m))
      networks := Table.ofList (networks.map fun n => (n.id, n))
      leases := Table.ofList (leases.map fun l => (l.key, l))
      heartbeats := Table.ofList (heartbeats.map fun h => (h.machine, h)) }

end MachinePool.Store
