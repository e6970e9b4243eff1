import MachinePool.Cli.Arguments
import MachinePool.Config
import MachinePool.Inventory
import MachinePool.Json.Reader
import MachinePool.Json.Writer
import MachinePool.Record.Request

/-!
What the commands do, over any kind of files.

`Files` names the operations a run needs from its surroundings: files, stores,
the clock and random words. A command answers with the text it prints, or fails
with a message and its causes, the nearest first. A store that a command has
opened and changed is saved even if the command fails later.
-/

namespace MachinePool.Cli

/-- The surroundings of a run. Failures of files are given by their texts. -/
structure Files (m : Type → Type) where
  readText : String → m (Except String String)
  /-- Whether there is anything at a path. -/
  isPresent : String → m Bool
  writeText : String → String → m (Except String Unit)
  /-- Makes a directory and those above it, unless they are there. -/
  createDirectories : String → m (Except String Unit)
  /-- Opens a store; one that is not there is made. -/
  openStore : String → m (Except StoreError Store)
  saveStore : String → Store → m (Except StoreError Unit)
  /-- Seconds since the epoch. -/
  now : m UInt64
  randomWords : m Placement.RandomWords

/-! ### Failures -/

structure Failure where
  message : String
  causes : List String := []
  deriving DecidableEq, Repr

namespace Failure

/-- A failure of an allocation; a store failure is its own cause. -/
def ofAllocation (e : AllocationError) : Failure :=
  match e with
  | .store cause => ⟨e.message, [cause.message]⟩
  | _ => ⟨e.message, []⟩

def indentLines (indentation : String) (text : String) : String :=
  String.ofList (text.toList.flatMap fun c => if c = '\n' then '\n' :: indentation.toList else [c])

/-- The causes on lines of their own, numbered from `n` on. -/
def numberedCauses (n : Nat) : List String → String
  | [] => ""
  | cause :: causes =>
    let number := toString n
    let blanks := String.ofList (List.replicate (5 - number.length) ' ')
    "\n" ++ blanks ++ number ++ ": " ++ indentLines "       " cause ++ numberedCauses (n + 1) causes

def render (f : Failure) : String :=
  match f.causes with
  | [] => "Error: " ++ f.message ++ "\n"
  | [cause] => "Error: " ++ f.message ++ "\n\nCaused by:\n    " ++ indentLines "    " cause ++ "\n"
  | causes => "Error: " ++ f.message ++ "\n\nCaused by:" ++ numberedCauses 0 causes ++ "\n"

end Failure

variable {m : Type → Type} [Monad m]

abbrev Step (m : Type → Type) := ExceptT Failure m

/-- Fails with a failure for the text of a lower one. -/
def orFail {α : Type} (failure : String → Failure) (step : m (Except String α)) : Step m α := do
  match ← (step : m _) with
  | .ok a => pure a
  | .error cause => throw (failure cause)

/-- Fails with a message and the failure of a store as its cause. -/
def orStoreFail {α : Type} (message : String) (step : m (Except StoreError α)) : Step m α := do
  match ← (step : m _) with
  | .ok a => pure a
  | .error cause => throw ⟨message, [cause.message]⟩

/-! ### Reading files -/

def readRecord {α : Type} (files : Files m) (file : String) (read : Json → Option α) :
    Step m α := do
  let content ← orFail (fun cause => ⟨"reading " ++ file, [cause]⟩) (files.readText file)
  match (Json.parse? content).bind read with
  | some a => pure a
  | none => throw ⟨"parsing " ++ file, ["the file holds no such record"]⟩

def readConfig (files : Files m) (invocation : Invocation) : Step m Config := do
  let config ← match invocation.config with
    | none => pure {}
    | some file => do
      let content ←
        orFail (fun cause => ⟨"failed to read config " ++ file ++ ": " ++ cause, [cause]⟩)
          (files.readText file)
      match Config.ofToml? content with
      | some config => pure config
      | none => throw ⟨"invalid config: the file holds no configuration", []⟩
  match invocation.database with
  | none => pure config
  | some path => pure { config with storePath := path }

/-! ### Stores -/

/-- Opens the store of a configuration, in a directory that is made if it is not there. -/
def openStore (files : Files m) (config : Config) : Step m Store := do
  if let some parent := Path.parent? config.storePath then
    if parent ≠ "" then
      orFail (fun cause => ⟨"creating " ++ parent, [cause]⟩) (files.createDirectories parent)
  orStoreFail ("opening store " ++ config.storePath) (files.openStore config.storePath)

def saveStore (files : Files m) (config : Config) (s : Store) : Step m Unit :=
  orStoreFail ("saving store " ++ config.storePath) (files.saveStore config.storePath s)

/-- Saves a store and gives the outcome of what was done to it. -/
def saveOutcome {α : Type} (files : Files m) (config : Config)
    (outcome : Except AllocationError α × Store) : Step m α := do
  saveStore files config outcome.2
  match outcome.1 with
  | .ok a => pure a
  | .error e => throw (.ofAllocation e)

/-! ### Commands -/

def initConfig (files : Files m) (directory output : String) : Step m String := do
  if ← (files.isPresent output : m Bool) then
    throw ⟨output ++ " already exists", []⟩
  orFail (⟨·, []⟩) (files.writeText output (Config.scaffold directory).toToml)
  pure ("✓ Generated " ++ output ++ "\n")

/-- Reads the clock for each of some machines. -/
def readClock (files : Files m) : List String → m (String → UInt64)
  | [] => pure fun _ => 0
  | id :: ids => do
    let now ← files.now
    let later ← readClock files ids
    pure fun other => if other = id then now else later other

def importInventory (files : Files m) (config : Config) (file : String) : Step m String := do
  let inventory ← readRecord files file Inventory.ofJson?
  let s ← openStore files config
  let clock ← (readClock files inventory.liveliness.keys : m (String → UInt64))
  let (failure, s) := s.load clock inventory
  saveStore files config s
  match failure with
  | some f => throw ⟨"registering machine " ++ f.machine, [f.cause.message]⟩
  | none =>
    pure ("✓ Imported " ++ toString inventory.networks.length ++ " networks, " ++
      toString inventory.leases.length ++ " ips, " ++ toString inventory.machines.length ++
      " machines\n")

def listMachines (files : Files m) (config : Config) : Step m String := do
  let s ← openStore files config
  pure ((Json.list Machine.toJson s.listMachines).renderIndented ++ "\n")

/-- Selects a machine and claims it, again if a race is lost. -/
def allocate (files : Files m) (config : Config) (demand : Store.Demand) : Step m String := do
  let s ← openStore files config
  let words ← (files.randomWords : m Placement.RandomWords)
  let machine ← saveOutcome files config
    (s.claimWithRetry config.claimAttempts demand Interference.none words)
  pure (machine.toJson.renderIndented ++ "\n")

def plannedJson (id : String) (planned : PlannedNetwork) : Json :=
  Json.record [("network_id", Json.text id), ("network_type", Json.text planned.type.word),
    ("ips", Json.list Json.address (planned.leases.map (·.address))),
    ("auto", .bool planned.auto)]

def classify (files : Files m) (config : Config) (file partition : String) : Step m String := do
  let request ← readRecord files file Request.ofJson?
  let s ← openStore files config
  match s.validateAndPlan request partition s.superNetworks with
  | .ok plan =>
    pure ((Json.list (fun e => plannedJson e.1 e.2) plan.entries).renderIndented ++ "\n")
  | .error e => throw (.ofAllocation e)

def release (files : Files m) (config : Config) (machine : String) : Step m String := do
  let s ← openStore files config
  match s.release machine with
  | .ok (released, s) => do
    saveStore files config s
    pure ("✓ Released " ++ released.id ++ "\n")
  | .error e => throw (.ofAllocation e)

def recordLiveliness (files : Files m) (config : Config) (machine : String) (l : Liveliness) :
    Step m String := do
  let s ← openStore files config
  match s.machine? machine with
  | none => throw ⟨"machine not found: " ++ machine, []⟩
  | some _ => do
    let now ← (files.now : m UInt64)
    saveStore files config (s.reportLiveliness now machine l)
    pure ("✓ " ++ machine ++ " is " ++ l.displayName ++ "\n")

def runCommand (files : Files m) (config : Config) : Command → Step m String
  | .initConfig directory output => initConfig files directory output
  | .importInventory file => importInventory files config file
  | .listMachines => listMachines files config
  | .allocate demand => allocate files config demand
  | .classify file partition => classify files config file partition
  | .release machine => release files config machine
  | .liveliness machine l => recordLiveliness files config machine l

/-! ### Runs -/

/-- What a run leaves behind besides its files. -/
structure Outcome where
  exitCode : UInt32
  output : String
  errors : String
  deriving DecidableEq, Repr

def helpText : String :=
  "Bare-metal machine allocation\n\nUsage: metalctl [OPTIONS] <COMMAND>\n\nCommands:\n" ++
    "  init-config  Write a metal.toml scaffold\n" ++
    "  import       Load networks, IPs, machines and liveliness from a JSON inventory\n" ++
    "  machines     List machines as JSON\n" ++
    "  allocate     Select a machine spread across racks and claim it\n" ++
    "  classify     Validate an allocation request and print its network plan\n" ++
    "  release      Return a machine to the pool\n" ++
    "  liveliness   Record the liveliness of a machine\n" ++
    "  help         Print this message or the help of the given subcommand(s)\n\nOptions:\n" ++
    "  -c, --config <CONFIG>  Path to metal.toml\n" ++
    "      --db <DB>          Override the store path from the config\n" ++
    "  -h, --help             Print help\n" ++
    "  -V, --version          Print version\n"

/-- The version, under the name of a command if one was given. -/
def versionText (command : Option String) : String :=
  "metalctl" ++ (command.map ("-" ++ ·)).getD "" ++ " 0.1.0\n"

def outcomeOf : Except Failure String → Outcome
  | .ok output => ⟨0, output, ""⟩
  | .error failure => ⟨1, "", failure.render⟩

def run (files : Files m) (arguments : List String) : m Outcome :=
  match readArguments arguments with
  | .misunderstood => pure ⟨2, "", "error: the command line was not understood\n"⟩
  | .showHelp => pure ⟨0, helpText, ""⟩
  | .showVersion command => pure ⟨0, versionText command, ""⟩
  | .run invocation => do
    let steps : Step m String := do
      let config ← readConfig files invocation
      runCommand files config invocation.command
    return outcomeOf (← steps.run)

end MachinePool.Cli
