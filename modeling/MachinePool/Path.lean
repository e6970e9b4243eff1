import MachinePool.Text.Digits

/-!
Paths as texts: the fields between slashes, without a look at any file.

A field that is empty or a single dot leads nowhere (`isIdle`). Two paths are
the same (`same`) when they differ in such fields only, save for a dot at the
very front, which is the mark of a path that begins here: `./a` and `a` are not
the same. `parent?` and `ancestors` cut a path at a field that leads somewhere;
what stays is kept as it was written.
-/

namespace MachinePool.Path

/-! ### Fields -/

/-- The mark a path begins with, and the rest of its text. A path begins at the root (a slash),
here (a dot that is the whole first field), or with a name. -/
def cutMark : List Char → List Char × List Char
  | '/' :: body => (['/'], body)
  | ['.'] => (['.'], [])
  | '.' :: '/' :: body => (['.'], '/' :: body)
  | body => ([], body)

def upward : List Char := ['.', '.']

def isIdle (field : List Char) : Bool := field = [] || field = ['.']

/-- The mark of a path and its fields that lead somewhere. -/
def parts (path : String) : List Char × List (List Char) :=
  let (mark, body) := cutMark path.toList
  (mark, (Text.split '/' body).filter (!isIdle ·))

def same (a b : String) : Bool := parts a = parts b

/-! ### Joining and cutting -/

def join (directory file : String) : String :=
  match directory.toList.getLast? with
  | none => file
  | some '/' => directory ++ file
  | some _ => directory ++ "/" ++ file

/-- The path with a mark and fields, the last field first. -/
def write (mark : List Char) (fields : List (List Char)) : String :=
  String.ofList (mark ++ ['/'].intercalate fields.reverse)

/-- The path of the directory a path lies in: empty if the path is a lone name or dot, and none
if there is no last field to cut. -/
def parent? (path : String) : Option String :=
  let (mark, body) := cutMark path.toList
  match (Text.split '/' body).reverse.dropWhile isIdle with
  | [] => if mark = ['.'] then some "" else none
  | _ :: fields => some (write mark (fields.dropWhile isIdle))

/-- The paths that end at a field that leads somewhere, the longest first. -/
def writeEach (mark : List Char) : List (List Char) → List String
  | [] => []
  | field :: fields =>
    if isIdle field then writeEach mark fields
    else write mark (field :: fields) :: writeEach mark fields

/-- A path without idle fields at its end, and the paths above it down to its first field. -/
def ancestors (path : String) : List String :=
  let (mark, body) := cutMark path.toList
  writeEach mark (Text.split '/' body).reverse

example : same "/a//b/." "/a/b" = true ∧ same "./a" "a" = false := by decide +kernel

example : parent? "a/./b" = some "a" ∧ parent? "//a" = some "/" ∧ parent? "./a" = some "." ∧
    parent? "a" = some "" ∧ parent? "/" = none := by decide +kernel

example : ancestors "a/./b/c" = ["a/./b/c", "a/./b", "a"] := by decide +kernel

end MachinePool.Path
