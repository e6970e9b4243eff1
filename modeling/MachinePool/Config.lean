import MachinePool.Path
import MachinePool.Toml.Reader

/-!
The configuration of the program: where the store is, how often a lost race is
run again, and what is logged.

Reading fills in every section and every setting that is left out and skips what
it does not know. A race is run at least once, whatever the text says.
-/

namespace MachinePool

structure Config where
  storePath : String := "/var/lib/metal/metal.redb"
  claimAttempts : UInt32 := 3
  logFilter : String := "info,metal=debug"
  deriving DecidableEq, Repr

namespace Config

instance : Inhabited Config := ⟨{}⟩

/-- Whether two configurations say the same, where paths count by their parts. -/
def agrees (a b : Config) : Bool :=
  Path.same a.storePath b.storePath && a.claimAttempts = b.claimAttempts &&
    a.logFilter = b.logFilter

def scaffold (directory : String) : Config := { storePath := Path.join directory "metal.redb" }

/-! ### Writing -/

def toToml (c : Config) : String :=
  "[store]\npath = " ++ String.ofList (Toml.writeText c.storePath) ++
    "\n\n[allocation]\nclaim_attempts = " ++ toString c.claimAttempts.toNat ++
    "\n\n[log]\nfilter = " ++ String.ofList (Toml.writeText c.logFilter) ++ "\n"

/-! ### Reading -/

/-- The settings of a section: a table, or an array that gives them in order. A moment in time
stands for a section without settings. -/
def settings? (names : List String) : Toml → Option Toml.Entries
  | .table _ entries => some entries
  | .array items => some (names.zip items)
  | .sections tables => some (names.zip tables)
  | .moment => some []
  | _ => none

/-- A setting of a section, or its default when either is left out. -/
def setting? {α : Type} (document : Toml.Entries) (section_ name : String) (default : α)
    (read : Toml → Option α) : Option α :=
  match Toml.find? document section_ with
  | none => some default
  | some table => do
    let settings ← settings? [name] table
    match Toml.find? settings name with
    | none => some default
    | some value => read value

def text? : Toml → Option String
  | .text s => some s
  | _ => none

/-- A number of attempts, one at least. -/
def attempts? : Toml → Option UInt32
  | .integer i => if 0 ≤ i ∧ i < UInt32.size then some (max 1 (UInt32.ofNat i.toNat)) else none
  | _ => none

def ofToml? (content : String) : Option Config := do
  let document ← Toml.parse? content
  let initial : Config := {}
  let storePath ← setting? document "store" "path" initial.storePath text?
  let claimAttempts ←
    setting? document "allocation" "claim_attempts" initial.claimAttempts attempts?
  let logFilter ← setting? document "log" "filter" initial.logFilter text?
  some { storePath, claimAttempts, logFilter }

end Config

end MachinePool
