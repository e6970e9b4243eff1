import MachinePool.Record.Network
import MachinePool.Store.Basic

/-!
Inventories: the networks, leases, machines and health reports an operator
loads into the store.

Loading puts networks, leases, machines and reports in place one after another,
in the order listed. It stops at the first machine that cannot be registered;
what was put in place before stays.
-/

namespace MachinePool

structure Inventory where
  networks : List Network
  leases : List Lease
  machines : List Machine
  /-- The health of machines by id. -/
  liveliness : Table Liveliness

namespace Inventory

/-! ### The JSON form -/

/-- Reads an object from texts to values; of several values for one key the last one counts. -/
def tableOfJson? {α : Type} (read : Json → Option α) : Json → Option (Table α)
  | .object members =>
    (members.mapM fun (m : Option String × Json) => do
      let key ← m.1
      let value ← read m.2
      some (key, value)).map Table.ofList
  | _ => none

/-- How deep containers may nest in the kind of a network of an inventory. -/
def kindRoom : Nat := 124

/-- Reads an inventory; every section may be left out. -/
def ofJson? (j : Json) : Option Inventory := do
  let fields ← j.fields? ["networks", "ips", "machines", "liveliness"]
  let networks ← fields.orElse "networks" [] (Json.list? (Network.ofJson? kindRoom))
  let leases ← fields.orElse "ips" [] (Json.list? Lease.ofJson?)
  let machines ← fields.orElse "machines" [] (Json.list? Machine.ofJson?)
  let liveliness ← fields.orElse "liveliness" Table.empty (tableOfJson? Json.liveliness?)
  some { networks, leases, machines, liveliness }

end Inventory

/-! ### Loading -/

/-- A machine of an inventory that could not be registered. -/
structure LoadFailure where
  machine : String
  cause : StoreError
  deriving DecidableEq, Repr

namespace Store

/-- Registers machines up to the first that fails. -/
def registerAll (s : Store) : List Machine → Option LoadFailure × Store
  | [] => (none, s)
  | m :: ms =>
    match s.register m with
    | .ok (_, s) => s.registerAll ms
    | .error e => (some ⟨m.id, e⟩, s)

/-- Records the health of machines, of each at the time the clock then shows. -/
def reportAll (s : Store) (clock : String → UInt64) (reports : List (String × Liveliness)) : Store :=
  reports.foldl (fun s r => s.reportLiveliness (clock r.1) r.1 r.2) s

/-- Loads an inventory. The clock is read for every health report; `clock` gives what it shows by
the id of the machine. -/
def load (s : Store) (clock : String → UInt64) (i : Inventory) : Option LoadFailure × Store :=
  let s := i.networks.foldl putNetwork s
  let s := i.leases.foldl putLease s
  match s.registerAll i.machines with
  | (some failure, s) => (some failure, s)
  | (none, s) => (none, s.reportAll clock i.liveliness.entries)

end Store

end MachinePool
