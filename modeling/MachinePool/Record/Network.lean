import MachinePool.Network
import MachinePool.Record.Machine

/-!
The JSON form of networks and leases.

The kind of a network is an object whose member `type` names it; a tenant
network has its parent and its sharing beside it. The kind is known only once
that member is found, so everything in the object is kept until then and has to
be `keepable`, also what no kind has a field for. As an array a kind is its type
followed by its fields.
-/

namespace MachinePool

open Json

namespace NetworkKind

def word : NetworkKind → String
  | privateSuper => "private_super"
  | underlay => "underlay"
  | tenant _ _ => "private"
  | external => "external"

def toJson : NetworkKind → Json
  | tenant parent shared =>
    record [("type", text "private"), ("parent_network_id", text parent), ("shared", bool shared)]
  | kind => record [("type", text kind.word)]

/-- The kind without fields of its own that a word names. -/
def plain? (type : String) : Option NetworkKind :=
  [privateSuper, underlay, external].find? (·.word = type)

def tenantOfJson? (j : Json) : Option NetworkKind := do
  let fields ← fields? ["parent_network_id", "shared"] j
  let parent ← fields.required "parent_network_id" text?
  let shared ← fields.orElse "shared" false bool?
  some (tenant parent shared)

/-- Reads the kind of a type from the rest of its object or array. -/
def ofType? (type : String) (rest : Json) : Option NetworkKind :=
  if type = "private" then tenantOfJson? rest
  else match rest with
    | .array (_ :: _) => none
    | _ => plain? type

/-- Reads a kind in which containers may nest `room` deep. -/
def ofJson? (room : Nat) (j : Json) : Option NetworkKind :=
  if !j.keepable room then none
  else match j with
    | .array (type :: rest) => do
      let type ← text? type
      ofType? type (.array rest)
    | .object members =>
      match members.filter (·.1 = some "type") with
      | [(_, type)] => do
        let type ← text? type
        ofType? type (.object (members.filter (·.1 ≠ some "type")))
      | _ => none
    | _ => none

end NetworkKind

namespace Network

def toJson (n : Network) : Json :=
  record [("id", text n.id), ("name", text n.name), ("project_id", optional text n.project),
    ("partition_id", optional text n.partition), ("prefixes", list text n.ranges),
    ("kind", n.kind.toJson)]

/-- Reads a network in whose kind containers may nest `room` deep. -/
def ofJson? (room : Nat) (j : Json) : Option Network := do
  let fields ← fields? ["id", "name", "project_id", "partition_id", "prefixes", "kind"] j
  let id ← fields.required "id" text?
  let name ← fields.orElse "name" "" text?
  let project ← fields.optional "project_id" (nullable? text?)
  let partition ← fields.optional "partition_id" (nullable? text?)
  let ranges ← fields.orElse "prefixes" [] (list? text?)
  let kind ← fields.required "kind" (NetworkKind.ofJson? room)
  some { id, name, project, partition, ranges, kind }

end Network

namespace Lease

def toJson (l : Lease) : Json :=
  record [("address", Json.address l.address), ("name", text l.name),
    ("project_id", text l.project), ("network_id", text l.network)]

def ofJson? (j : Json) : Option Lease := do
  let fields ← fields? ["address", "name", "project_id", "network_id"] j
  let address ← fields.required "address" address?
  let name ← fields.orElse "name" "" text?
  let project ← fields.required "project_id" text?
  let network ← fields.required "network_id" text?
  some { address, name, project, network }

end Lease

end MachinePool
