import MachinePool.Cli.Run

/-!
Files held in memory: texts, stores and directories at places.

A path is walked field by field from the working directory or from the root
(`walk`): a field can only be entered from a directory, and a double dot leads
to the place above. So `a//b`, `./a/b` and `c/../a/b` lead to one place, the
last of them only if `c` is a directory. The directories above the working
directory are taken to be there and to hold nothing else.
-/

namespace MachinePool.Cli

inductive DiskEntry where
  | text (content : String)
  | store (s : Store)
  | directory
  deriving Repr

inductive DiskError where
  | absent
  | taken
  | notDirectory
  | isDirectory
  | nameTooLong
  /-- The path has a character with which every path ends. -/
  | endsEarly
  | notText
  deriving DecidableEq, Repr

def DiskError.message : DiskError → String
  | absent => "No such file or directory (os error 2)"
  | taken => "File exists (os error 17)"
  | notDirectory => "Not a directory (os error 20)"
  | isDirectory => "Is a directory (os error 21)"
  | nameTooLong => "File name too long (os error 36)"
  | endsEarly => "file name contained an unexpected NUL byte"
  | notText => "stream did not contain valid UTF-8"

/-! ### Places -/

/-- A place: the names that lead to it from the working directory, the last one first. Above the
working directory are only double dots; a place below the root has an empty name at its end. -/
abbrev Place := List (List Char)

namespace Place

def here : Place := []

def root : Place := [[]]

/-- The place above a place; the root is above itself. -/
def up (place : Place) : Place :=
  if place = root then root
  else if place.all (· = Path.upward) then Path.upward :: place
  else place.tail

/-- Whether a place is a directory before any is made. -/
def isGiven (place : Place) : Bool := place = root || place.all (· = Path.upward)

def enter (place : Place) (field : List Char) : Place :=
  if Path.isIdle field then place
  else if field = Path.upward then place.up
  else field :: place

def key (place : Place) : String := Path.write [] place

end Place

/-! ### Disks -/

/-- Files in memory, by the keys of their places. -/
structure Disk where
  entries : Table DiskEntry
  deriving Repr

namespace Disk

def entryAt? (d : Disk) (place : Place) : Option DiskEntry :=
  if place.isGiven then some .directory else d.entries.get? place.key

def put (d : Disk) (place : Place) (entry : DiskEntry) : Disk :=
  ⟨d.entries.insert place.key entry⟩

/-! ### Walking -/

def textSize (cs : List Char) : Nat := (String.ofList cs).utf8ByteSize

def nameLimit : Nat := 255

def pathLimit : Nat := 4095

def checkDirectory (d : Disk) (place : Place) : Except DiskError Unit :=
  match d.entryAt? place with
  | some .directory => .ok ()
  | some _ => .error .notDirectory
  | none => .error .absent

def checkName (field : List Char) : Except DiskError Unit :=
  if nameLimit < textSize field then .error .nameTooLong else .ok ()

def walk (d : Disk) (place : Place) : List (List Char) → Except DiskError Place
  | [] => .ok place
  | field :: fields => do
    d.checkDirectory place
    checkName field
    d.walk (place.enter field) fields

/-- Where the walk along a path begins, and its fields. -/
def start (path : String) : Except DiskError (Place × List (List Char)) :=
  if path.toList.contains '\x00' then .error .endsEarly
  else if pathLimit < path.utf8ByteSize then .error .nameTooLong
  else match path.toList with
    | [] => .error .absent
    | '/' :: cs => .ok (.root, Text.split '/' cs)
    | cs => .ok (.here, Text.split '/' cs)

def resolve (d : Disk) (path : String) : Except DiskError Place := do
  let (place, fields) ← start path
  d.walk place fields

def find? (d : Disk) (path : String) : Option DiskEntry :=
  match d.resolve path with
  | .ok place => d.entryAt? place
  | .error _ => none

def isDirectory (d : Disk) (path : String) : Bool :=
  match d.find? path with
  | some .directory => true
  | _ => false

/-! ### Making something -/

structure LastName where
  /-- The directory in which the name is looked up. -/
  directory : Place
  name : List Char
  /-- Whether slashes follow the name. -/
  slashed : Bool
  deriving DecidableEq, Repr

/-- The last name of a path, whose directory must be there; none if the path ends in a dot, a
double dot or nothing but slashes. -/
def lastName (d : Disk) (path : String) : Except DiskError (Option LastName) := do
  let (place, fields) ← start path
  let reversed := fields.reverse
  match reversed.dropWhile (· = []) with
  | [] => return none
  | name :: above =>
    let directory ← d.walk place above.reverse
    d.checkDirectory directory
    if name = ['.'] || name = Path.upward then return none
    else return some ⟨directory, name, reversed.head? = some []⟩

/-- The place of a file that is to be opened, and made if it is not there. -/
def placeToOpen (d : Disk) (path : String) : Except DiskError Place := do
  match ← d.lastName path with
  | none => .error .isDirectory
  | some last =>
    if last.slashed then .error .isDirectory
    else do
      checkName last.name
      let place := last.directory.enter last.name
      match d.entryAt? place with
      | some .directory => .error .isDirectory
      | _ => return place

def makeDirectory (d : Disk) (path : String) : Except DiskError Disk := do
  match ← d.lastName path with
  | none => .error .taken
  | some last => do
    checkName last.name
    let place := last.directory.enter last.name
    match d.entryAt? place with
    | some _ => .error .taken
    | none => return d.put place .directory

/-- Makes directories in the order given; those that are there already are left as they are. What
was made before a failure stays. -/
def makeEach (d : Disk) : List String → Except DiskError Unit × Disk
  | [] => (.ok (), d)
  | path :: paths =>
    match d.makeDirectory path with
    | .ok d => d.makeEach paths
    | .error e => if e = .taken && d.isDirectory path then d.makeEach paths else (.error e, d)

/-- Makes the first of some directories that can be made, the nearest first, and then in return
those that were passed over. -/
def makeFrom (d : Disk) (passed : List String) : List String → Except DiskError Unit × Disk
  | [] => d.makeEach passed
  | path :: paths =>
    match d.makeDirectory path with
    | .ok d => d.makeEach passed
    | .error .absent => d.makeFrom (path :: passed) paths
    | .error e => if e = .taken && d.isDirectory path then d.makeEach passed else (.error e, d)

def createDirectories (d : Disk) (path : String) : Except DiskError Unit × Disk :=
  d.makeFrom [] (Path.ancestors path)

/-! ### Texts and stores -/

def readText (d : Disk) (path : String) : Except DiskError String := do
  match d.entryAt? (← d.resolve path) with
  | some (.text content) => return content
  | some (.store _) => .error .notText
  | some .directory => .error .isDirectory
  | none => .error .absent

def writeText (d : Disk) (path content : String) : Except DiskError Disk := do
  return d.put (← d.placeToOpen path) (.text content)

/-- Opens a store; a missing or empty file becomes an empty store. -/
def openStore (d : Disk) (path : String) : Except StoreError (Store × Disk) :=
  match d.placeToOpen path with
  | .error e => .error (.openFailed ("I/O error: " ++ e.message))
  | .ok place =>
    match d.entryAt? place with
    | some (.store s) => .ok (s, d)
    | some (.text content) =>
      if content = "" then .ok (.empty, d.put place (.store .empty))
      else .error (.openFailed "I/O error: invalid data")
    | _ => .ok (.empty, d.put place (.store .empty))

def saveStore (d : Disk) (path : String) (s : Store) : Except StoreError Disk :=
  match d.placeToOpen path with
  | .error e => .error (.writeFailed e.message)
  | .ok place => .ok (d.put place (.store s))

/-! ### Runs on a disk -/

/-- Runs an operation that changes the disk if it succeeds. -/
def change {ε α : Type} (operation : Disk → Except ε (α × Disk)) : StateM Disk (Except ε α) := do
  match operation (← get) with
  | .ok (a, d) => do
    set d
    return .ok a
  | .error e => return .error e

def withMessage {α : Type} (outcome : Except DiskError α) : Except String α :=
  outcome.mapError DiskError.message

/-- The disk as the surroundings of a run at a time. -/
def files (now : UInt64) (words : Placement.RandomWords) : Files (StateM Disk) where
  readText path := return withMessage ((← get).readText path)
  isPresent path := return ((← get).find? path).isSome
  writeText path content := change fun d => withMessage ((d.writeText path content).map ((), ·))
  createDirectories path := do
    let (outcome, d) := (← get).createDirectories path
    set d
    return withMessage outcome
  openStore path := change (·.openStore path)
  saveStore path s := change fun d => (d.saveStore path s).map ((), ·)
  now := return now
  randomWords := return words

/-- The disk with a text in it, and the directories above the text. -/
def addText (d : Disk) (path content : String) : Disk :=
  let d := match Path.parent? path with
    | some directory => (d.createDirectories directory).2
    | none => d
  match d.writeText path content with
  | .ok d => d
  | .error _ => d

def ofTexts (texts : List (String × String)) : Disk :=
  texts.foldl (fun d t => d.addText t.1 t.2) ⟨.empty⟩

end Disk

end MachinePool.Cli
