import MachinePool.Json.Fields
import MachinePool.Liveliness
import MachinePool.Machine

/-!
The JSON form of machines and of reports about them.

Writers give every field in its declared order. Readers fill in a name, tags
and a version marker that are left out, and take a machine without the field
`allocation` for a free one.
-/

namespace MachinePool

open Json

/-! ### Words -/

def Availability.word : Availability → String
  | available => "available"
  | reserved => "reserved"
  | locked => "locked"

def Availability.all : List Availability := [available, reserved, locked]

def AttachmentType.word : AttachmentType → String
  | privatePrimaryUnshared => "private_primary_unshared"
  | privatePrimaryShared => "private_primary_shared"
  | privateSecondaryShared => "private_secondary_shared"
  | external => "external"

def AttachmentType.all : List AttachmentType :=
  [privatePrimaryUnshared, privatePrimaryShared, privateSecondaryShared, external]

def Role.all : List Role := [machine, firewall]

def Liveliness.all : List Liveliness := [alive, dead, unknown]

namespace Json

def availability? : Json → Option Availability := choice? Availability.word Availability.all

def attachmentType? : Json → Option AttachmentType :=
  choice? AttachmentType.word AttachmentType.all

def role? : Json → Option Role := choice? Role.word Role.all

def liveliness? : Json → Option Liveliness := choice? Liveliness.word Liveliness.all

/-- Reads an address in any of its spellings. -/
def address? (j : Json) : Option Address := (text? j).bind Address.ofText?

/-- Writes an address in its canonical spelling. -/
def address (a : Address) : Json := text a.text

end Json

/-! ### Allocations -/

namespace Attachment

def toJson (a : Attachment) : Json :=
  record [("network_id", text a.network), ("ips", list address a.addresses),
    ("auto_acquire_ip", bool a.autoAcquire), ("network_type", text a.type.word)]

def ofJson? (j : Json) : Option Attachment := do
  let fields ← fields? ["network_id", "ips", "auto_acquire_ip", "network_type"] j
  let network ← fields.required "network_id" text?
  let addresses ← fields.required "ips" (list? address?)
  let autoAcquire ← fields.required "auto_acquire_ip" bool?
  let type ← fields.required "network_type" attachmentType?
  some { network, addresses, autoAcquire, type }

end Attachment

namespace Allocation

def toJson (a : Allocation) : Json :=
  record [("name", text a.name), ("creator", text a.creator), ("project", text a.project),
    ("role", text a.role.word), ("ssh_pub_keys", list text a.sshKeys),
    ("networks", list Attachment.toJson a.attachments), ("created_at", word a.createdAt)]

def ofJson? (j : Json) : Option Allocation := do
  let fields ← fields?
    ["name", "creator", "project", "role", "ssh_pub_keys", "networks", "created_at"] j
  let name ← fields.required "name" text?
  let creator ← fields.required "creator" text?
  let project ← fields.required "project" text?
  let role ← fields.required "role" role?
  let sshKeys ← fields.orElse "ssh_pub_keys" [] (list? text?)
  let attachments ← fields.required "networks" (list? Attachment.ofJson?)
  let createdAt ← fields.required "created_at" word?
  some { name, creator, project, role, sshKeys, attachments, createdAt }

end Allocation

/-! ### Machines -/

namespace AdminState

def toJson (s : AdminState) : Json :=
  record [("value", text s.value.word), ("description", text s.description)]

def ofJson? (j : Json) : Option AdminState := do
  let fields ← fields? ["value", "description"] j
  let value ← fields.required "value" availability?
  let description ← fields.orElse "description" "" text?
  some { value, description }

end AdminState

namespace Machine

def toJson (m : Machine) : Json :=
  record [("id", text m.id), ("name", text m.name), ("partition_id", text m.partition),
    ("size_id", text m.size), ("rack_id", text m.rack), ("state", m.state.toJson),
    ("waiting", bool m.waiting), ("preallocated", bool m.preallocated),
    ("allocation", optional Allocation.toJson m.allocation), ("tags", list text m.tags),
    ("changed", word m.changed)]

def ofJson? (j : Json) : Option Machine := do
  let fields ← fields?
    ["id", "name", "partition_id", "size_id", "rack_id", "state", "waiting", "preallocated",
      "allocation", "tags", "changed"] j
  let id ← fields.required "id" text?
  let name ← fields.orElse "name" "" text?
  let partition ← fields.required "partition_id" text?
  let size ← fields.required "size_id" text?
  let rack ← fields.required "rack_id" text?
  let state ← fields.required "state" AdminState.ofJson?
  let waiting ← fields.required "waiting" bool?
  let preallocated ← fields.required "preallocated" bool?
  let allocation ← fields.optional "allocation" (nullable? Allocation.ofJson?)
  let tags ← fields.orElse "tags" [] (list? text?)
  let changed ← fields.orElse "changed" 0 word?
  some { id, name, partition, size, rack, state, waiting, preallocated, allocation, tags, changed }

end Machine

/-! ### Reports -/

namespace Heartbeat

def toJson (h : Heartbeat) : Json :=
  record [("machine_id", text h.machine), ("liveliness", text h.liveliness.word),
    ("last_event_time", word h.time)]

def ofJson? (j : Json) : Option Heartbeat := do
  let fields ← fields? ["machine_id", "liveliness", "last_event_time"] j
  let machine ← fields.required "machine_id" text?
  let liveliness ← fields.required "liveliness" liveliness?
  let time ← fields.required "last_event_time" word?
  some { machine, liveliness, time }

end Heartbeat

end MachinePool
