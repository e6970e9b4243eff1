import MachinePool.Query
import MachinePool.Record.Machine
import MachinePool.Request

/-!
The JSON form of requests and queries. Every field of both may be left out and
is then empty or absent.
-/

namespace MachinePool

open Json

namespace NetworkRequest

def toJson (r : NetworkRequest) : Json :=
  record [("network_id", text r.network), ("auto_acquire_ip", optional bool r.autoAcquire)]

def ofJson? (j : Json) : Option NetworkRequest := do
  let fields ← fields? ["network_id", "auto_acquire_ip"] j
  let network ← fields.required "network_id" text?
  let autoAcquire ← fields.orElse "auto_acquire_ip" none (nullable? bool?)
  some { network, autoAcquire }

end NetworkRequest

namespace Request

def toJson (r : Request) : Json :=
  record [("name", text r.name), ("creator", text r.creator), ("project_id", text r.project),
    ("role", text r.role.word), ("machine_id", optional text r.machine),
    ("partition_id", optional text r.partition), ("size_id", optional text r.size),
    ("networks", list NetworkRequest.toJson r.networks), ("ips", list text r.addresses),
    ("ssh_pub_keys", list text r.sshKeys), ("tags", list text r.tags)]

def ofJson? (j : Json) : Option Request := do
  let fields ← fields?
    ["name", "creator", "project_id", "role", "machine_id", "partition_id", "size_id", "networks",
      "ips", "ssh_pub_keys", "tags"] j
  let name ← fields.orElse "name" "" text?
  let creator ← fields.orElse "creator" "" text?
  let project ← fields.orElse "project_id" "" text?
  let role ← fields.orElse "role" .machine role?
  let machine ← fields.orElse "machine_id" none (nullable? text?)
  let partition ← fields.orElse "partition_id" none (nullable? text?)
  let size ← fields.orElse "size_id" none (nullable? text?)
  let networks ← fields.orElse "networks" [] (list? NetworkRequest.ofJson?)
  let addresses ← fields.orElse "ips" [] (list? text?)
  let sshKeys ← fields.orElse "ssh_pub_keys" [] (list? text?)
  let tags ← fields.orElse "tags" [] (list? text?)
  some { name, creator, project, role, machine, partition, size, networks, addresses, sshKeys,
         tags }

end Request

namespace Query

def toJson (q : Query) : Json :=
  record [("id", optional text q.id), ("name", optional text q.name),
    ("partition_id", optional text q.partition), ("size_id", optional text q.size),
    ("rack_id", optional text q.rack), ("tags", list text q.tags),
    ("allocated", optional bool q.allocated), ("allocation_project", optional text q.project),
    ("allocation_name", optional text q.allocationName),
    ("allocation_role", optional (fun r => text r.word) q.role),
    ("network_ids", list text q.networks),
    ("state_value", optional (fun a => text a.word) q.availability),
    ("waiting", optional bool q.waiting), ("preallocated", optional bool q.preallocated)]

def ofJson? (j : Json) : Option Query := do
  let fields ← fields?
    ["id", "name", "partition_id", "size_id", "rack_id", "tags", "allocated",
      "allocation_project", "allocation_name", "allocation_role", "network_ids", "state_value",
      "waiting", "preallocated"] j
  let id ← fields.orElse "id" none (nullable? text?)
  let name ← fields.orElse "name" none (nullable? text?)
  let partition ← fields.orElse "partition_id" none (nullable? text?)
  let size ← fields.orElse "size_id" none (nullable? text?)
  let rack ← fields.orElse "rack_id" none (nullable? text?)
  let tags ← fields.orElse "tags" [] (list? text?)
  let allocated ← fields.orElse "allocated" none (nullable? bool?)
  let project ← fields.orElse "allocation_project" none (nullable? text?)
  let allocationName ← fields.orElse "allocation_name" none (nullable? text?)
  let role ← fields.orElse "allocation_role" none (nullable? role?)
  let networks ← fields.orElse "network_ids" [] (list? text?)
  let availability ← fields.orElse "state_value" none (nullable? availability?)
  let waiting ← fields.orElse "waiting" none (nullable? bool?)
  let preallocated ← fields.orElse "preallocated" none (nullable? bool?)
  some { id, name, partition, size, rack, tags, allocated, project, allocationName, role,
         networks, availability, waiting, preallocated }

end Query

end MachinePool
