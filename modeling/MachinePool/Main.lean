import MachinePool.Cli.Run
import MachinePool.Store.Snapshot
import Std.Time.DateTime.Timestamp

/-!
The program: the command line over the files of the system, its clock and its
random bytes. A store is a file that holds the text of `Store.toJson`.
-/

namespace MachinePool.Cli

def systemMessage : IO.Error → String
  | .noFileOrDirectory .. => "No such file or directory (os error 2)"
  | .permissionDenied .. => "Permission denied (os error 13)"
  | .alreadyExists .. => "File exists (os error 17)"
  | .inappropriateType _ code _ =>
    if code = 20 then "Not a directory (os error 20)" else "Is a directory (os error 21)"
  | .invalidArgument .. => "stream did not contain valid UTF-8"
  | e => toString e

def isPresent (path : String) : IO Bool := do
  ((← IO.currentDir) / path).pathExists

/-- Runs an action and gives its failure as a text. -/
def attempt {α : Type} (action : IO α) : IO (Except String α) := do
  try
    return .ok (← action)
  catch e =>
    return .error (systemMessage e)

/-- Reads a text; bytes that are no text are refused. -/
def readTextFile (path : String) : IO (Except String String) := do
  match ← attempt (IO.FS.readBinFile path) with
  | .error cause => return .error cause
  | .ok bytes =>
    match String.fromUTF8? bytes with
    | some content => return .ok content
    | none => return .error "stream did not contain valid UTF-8"

def saveStoreFile (path : String) (s : Store) : IO (Except StoreError Unit) := do
  match ← attempt (IO.FS.writeFile path s.toJson.render) with
  | .ok () => return .ok ()
  | .error cause => return .error (.writeFailed cause)

/-- Opens the store in a file; a missing or empty file becomes an empty store. -/
def openStoreFile (path : String) : IO (Except StoreError Store) := do
  let content ← if ← isPresent path then readTextFile path else pure (.ok "")
  match content with
  | .error cause => return .error (.openFailed ("I/O error: " ++ cause))
  | .ok "" =>
    match ← saveStoreFile path .empty with
    | .ok () => return .ok .empty
    | .error e => return .error (.openFailed e.message)
  | .ok content =>
    match (Json.parse? content).bind Store.ofJson? with
    | some s => return .ok s
    | none => return .error (.openFailed "I/O error: invalid data")

/-- The words that some bytes make up, four to a word. -/
def wordsOfBytes : List UInt8 → List UInt32
  | a :: b :: c :: d :: rest =>
    UInt32.ofNat (((a.toNat * 256 + b.toNat) * 256 + c.toNat) * 256 + d.toNat) ::
      wordsOfBytes rest
  | _ => []

def systemWords : IO Placement.RandomWords := do
  let bytes ← IO.getRandomBytes 4096
  return { pending := wordsOfBytes bytes.data.toList }

def systemFiles : Files IO where
  readText := readTextFile
  isPresent := isPresent
  writeText path content := attempt (IO.FS.writeFile path content)
  createDirectories path := attempt (IO.FS.createDirAll path)
  openStore := openStoreFile
  saveStore := saveStoreFile
  now := do
    let now ← Std.Time.Timestamp.now
    return UInt64.ofNat now.toSecondsSinceUnixEpoch.val.toNat
  randomWords := systemWords

end MachinePool.Cli

def main (arguments : List String) : IO UInt32 := do
  let outcome ← MachinePool.Cli.run MachinePool.Cli.systemFiles arguments
  IO.print outcome.output
  IO.eprint outcome.errors
  return outcome.exitCode
