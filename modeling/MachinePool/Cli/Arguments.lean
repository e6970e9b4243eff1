import MachinePool.Allocation.Retry
import MachinePool.Liveliness

/-!
The command line: options, a command, and the command's own options and words.

An option has a value, given after `=`, as the next argument, or right after its
letter; the next argument is no value if it begins with a dash and more follows
the dash. Every argument after `--` is a word. An option is given once, unless
it may be repeated. Options for every command may stand before the command and
after it; the latter counts.

Arguments are judged in order, and the first that asks for help ends the
reading. A value that stands apart, whether as the next argument or as a word,
is judged late (`Given.unsettled`): when the next option or word of its level is
met, or when the level ends. The level before the command ends last.
-/

namespace MachinePool.Cli

inductive Command where
  | initConfig (directory output : String)
  | importInventory (file : String)
  | listMachines
  | allocate (demand : Store.Demand)
  | classify (file partition : String)
  | release (machine : String)
  | liveliness (machine : String) (l : Liveliness)
  deriving DecidableEq, Repr

structure Invocation where
  config : Option String
  database : Option String
  command : Command
  deriving DecidableEq, Repr

inductive Reading where
  | run (invocation : Invocation)
  | showHelp
  /-- Show the version, under the name of a command if one was given. -/
  | showVersion (command : Option String)
  | misunderstood
  deriving DecidableEq, Repr

/-! ### Values -/

inductive ValueForm where
  | text
  /-- A path, which is not empty. -/
  | path
  /-- A word for the health of a machine. -/
  | health
  deriving DecidableEq, Repr

def ValueForm.admits : ValueForm → String → Bool
  | text, _ => true
  | path, value => value ≠ ""
  | health, value => (Liveliness.ofWord value).isOk

structure OptionForm where
  name : String
  letter : Option Char := none
  repeatable : Bool := false
  value : ValueForm := .text
  deriving DecidableEq, Repr

/-- What one level of arguments takes: options in any order, and words in the order of their
forms. -/
structure LevelForm where
  options : List OptionForm
  words : List ValueForm := []
  deriving DecidableEq, Repr

def sharedOptions : List OptionForm :=
  [{ name := "config", letter := some 'c', value := .path }, { name := "db", value := .path }]

inductive Purpose where
  | option (form : OptionForm)
  | word (form : ValueForm)
  deriving DecidableEq, Repr

/-- What the arguments of one level give: values of options, and words. -/
structure Given where
  options : List (String × String) := []
  words : List String := []
  /-- The value that was read last, if it has not been judged yet. -/
  unsettled : Option (Purpose × String) := none
  deriving DecidableEq, Repr

namespace Given

def option (g : Given) (name : String) : Option String :=
  (g.options.find? (·.1 = name)).map (·.2)

/-- The values of an option that may be repeated. -/
def optionAll (g : Given) (name : String) : List String :=
  (g.options.filter (·.1 = name)).map (·.2)

/-- Adds a value; one that is not admitted, or comes twice for an option, is refused. -/
def give? (g : Given) : Purpose → String → Option Given
  | .option form, value =>
    if !form.value.admits value then none
    else if !form.repeatable && (g.option form.name).isSome then none
    else some { g with options := g.options ++ [(form.name, value)] }
  | .word form, value =>
    if form.admits value then some { g with words := g.words ++ [value] } else none

def settle? (g : Given) : Option Given :=
  match g.unsettled with
  | none => some g
  | some (purpose, value) => { g with unsettled := none }.give? purpose value

/-- Leaves a value to be judged later. -/
def hold (g : Given) (purpose : Purpose) (value : String) : Given :=
  { g with unsettled := some (purpose, value) }

def readWords? (g : Given) (forms : List ValueForm) : List String → Option Given
  | [] => some g
  | word :: words => do
    let g ← g.settle?
    let form ← forms[g.words.length]?
    (g.hold (.word form) word).readWords? forms words

end Given

/-! ### Arguments -/

inductive Argument where
  | word (w : String)
  /-- `--`. -/
  | endOfOptions
  /-- `--name` or `--name=value`. -/
  | long (name : String) (value : Option String)
  /-- A dash and a letter, and what stands right after the letter. -/
  | short (letter : Char) (rest : List Char)
  deriving DecidableEq, Repr

def Argument.of (argument : String) : Argument :=
  match argument.toList with
  | ['-', '-'] => .endOfOptions
  | '-' :: '-' :: name =>
    match name.dropWhile (· != '=') with
    | [] => .long (String.ofList name) none
    | _ :: value =>
      .long (String.ofList (name.takeWhile (· != '='))) (some (String.ofList value))
  | '-' :: letter :: rest => .short letter rest
  | _ => .word argument

/-- The value right after a letter, with or without `=`. -/
def attachedValue : List Char → Option String
  | [] => none
  | '=' :: value => some (String.ofList value)
  | value => some (String.ofList value)

/-- The option that an argument names, and the value attached to it. -/
def Argument.option? (forms : List OptionForm) : Argument → Option (OptionForm × Option String)
  | long name value => (forms.find? (·.name = name)).map (·, value)
  | short letter rest =>
    (forms.find? (·.letter = some letter)).map (·, attachedValue rest)
  | word _ | endOfOptions => none

/-- Whether an argument that names no option asks for help. What follows the letter is not
looked at. -/
def Argument.asksHelp : Argument → Bool
  | long name value => name = "help" && value.isNone
  | short letter _ => letter = 'h'
  | word _ | endOfOptions => false

def Argument.asksVersion : Argument → Bool
  | long name value => name = "version" && value.isNone
  | short letter _ => letter = 'V'
  | word _ | endOfOptions => false

inductive LevelEnd where
  /-- All arguments were read and judged. -/
  | done (given : Given)
  /-- A word was met where the first word ends the level; the arguments after it are left. -/
  | atWord (given : Given) (word : String) (rest : List String)
  | help
  | version
  | misunderstood
  deriving DecidableEq, Repr

def LevelEnd.ofOption : Option Given → LevelEnd
  | some given => .done given
  | none => .misunderstood

/-- Reads the arguments of a level, one option of which may be waiting for its value. If
`stopAtWord`, the first word ends the level, and `--` has no meaning. -/
def readLevel (level : LevelForm) (stopAtWord : Bool) (waiting : Option OptionForm)
    (given : Given) : List String → LevelEnd
  | [] => if waiting.isNone then .ofOption given.settle? else .misunderstood
  | argument :: rest =>
    match waiting, Argument.of argument with
    | some form, .word value =>
      readLevel level stopAtWord none (given.hold (.option form) value) rest
    | some _, _ => .misunderstood
    | none, .word w =>
      if stopAtWord then .atWord given w rest
      else match given.readWords? level.words [w] with
        | some given => readLevel level stopAtWord none given rest
        | none => .misunderstood
    | none, .endOfOptions =>
      if stopAtWord then .misunderstood
      else .ofOption ((given.readWords? level.words rest).bind (·.settle?))
    | none, argument =>
      -- Whatever else has a dash judges the value before it.
      match given.settle? with
      | none => .misunderstood
      | some given =>
        match argument.option? level.options with
        | some (form, some value) =>
          match given.give? (.option form) value with
          | some given => readLevel level stopAtWord none given rest
          | none => .misunderstood
        | some (form, none) => readLevel level stopAtWord (some form) given rest
        | none =>
          if argument.asksHelp then .help
          else if argument.asksVersion then .version
          else .misunderstood

/-! ### Commands -/

def commandNames : List String :=
  ["init-config", "import", "machines", "allocate", "classify", "release", "liveliness"]

/-- The options of a command besides those for every command. -/
def commandOptions (name : String) : List OptionForm :=
  if name = "init-config" then
    [{ name := "data-dir", value := .path },
      { name := "output", letter := some 'o', value := .path }]
  else if name = "allocate" then
    [{ name := "project" }, { name := "partition" }, { name := "size" },
      { name := "tag", repeatable := true }]
  else if name = "classify" then [{ name := "partition" }]
  else []

def commandWords (name : String) : List ValueForm :=
  if name = "import" || name = "classify" then [.path]
  else if name = "release" then [.text]
  else if name = "liveliness" then [.text, .health]
  else []

def commandLevel (name : String) : LevelForm :=
  { options := commandOptions name ++ sharedOptions, words := commandWords name }

def commandOf? (name : String) (g : Given) : Option Command :=
  match name, g.words with
  | "init-config", [] =>
    some (.initConfig ((g.option "data-dir").getD "/var/lib/metal")
      ((g.option "output").getD "metal.toml"))
  | "import", [file] => some (.importInventory file)
  | "machines", [] => some .listMachines
  | "allocate", [] => do
    let project ← g.option "project"
    let partition ← g.option "partition"
    let size ← g.option "size"
    some (.allocate { project, partition, size, tags := g.optionAll "tag" })
  | "classify", [file] => do
    let partition ← g.option "partition"
    some (.classify file partition)
  | "release", [machine] => some (.release machine)
  | "liveliness", [machine, word] =>
    match Liveliness.ofWord word with
    | .ok l => some (.liveliness machine l)
    | .error _ => none
  | _, _ => none

/-- The run of a command, given what stood before its name and after it. -/
def invocation? (name : String) (before after : Given) : Option Invocation := do
  let command ← commandOf? name after
  let before ← before.settle?
  some
    { config := (after.option "config").or (before.option "config")
      database := (after.option "db").or (before.option "db")
      command }

/-- Reads what help is asked for: nothing, or one command. -/
def readTopic : List String → Reading
  | [] => .showHelp
  | [topic] => if topic ∈ "help" :: commandNames then .showHelp else .misunderstood
  | _ => .misunderstood

def readCommand (before : Given) (name : String) (arguments : List String) : Reading :=
  if name = "help" then readTopic arguments
  else if name ∉ commandNames then .misunderstood
  else match readLevel (commandLevel name) false none {} arguments with
    | .done after =>
      match invocation? name before after with
      | some invocation => .run invocation
      | none => .misunderstood
    | .help => .showHelp
    | .version => .showVersion (some name)
    | .atWord _ _ _ | .misunderstood => .misunderstood

def readArguments (arguments : List String) : Reading :=
  match readLevel { options := sharedOptions } true none {} arguments with
  | .atWord given name rest => readCommand given name rest
  | .help => .showHelp
  | .version => .showVersion none
  | .done _ | .misunderstood => .misunderstood

end MachinePool.Cli
