import MachinePool.Toml.Quoted
import MachinePool.Toml.Scalar

/-!
Reading TOML documents.

A document is a row of lines: blank ones, comments, headers and pairs of a
dotted key and a value. Values in brackets and braces nest at most
`nestingLimit` deep, and a dotted key has at most that many parts.
-/

namespace MachinePool.Toml

/-- How deep values nest, and how many parts a dotted key has, at most. -/
def nestingLimit : Nat := 79

/-! ### Blanks, comments and ends of lines -/

def skipBlanks (cs : List Char) : List Char := cs.dropWhile isBlank

/-- What follows blanks, newlines and comments. A comment reaches to the end of its line. -/
def skipGap? (inComment : Bool) : List Char → Option (List Char)
  | [] => some []
  | '\n' :: rest => skipGap? false rest
  | '\r' :: '\n' :: rest => skipGap? false rest
  | c :: rest =>
    if inComment then if isPlain c then skipGap? true rest else none
    else if isBlank c then skipGap? false rest
    else if c = '#' then skipGap? true rest
    else some (c :: rest)

/-- What follows the end of a line, before which only blanks and a comment may stand. -/
def endLine? (inComment : Bool) : List Char → Option (List Char)
  | [] => some []
  | '\n' :: rest => some rest
  | '\r' :: '\n' :: rest => some rest
  | c :: rest =>
    if inComment then if isPlain c then endLine? true rest else none
    else if isBlank c then endLine? false rest
    else if c = '#' then endLine? true rest
    else none

/-! ### Keys -/

def isKeyChar (c : Char) : Bool := c.isAlphanum || c == '_' || c == '-'

def readKey? (cs : List Char) : Option (String × List Char) :=
  match cs with
  | [] => none
  | c :: rest =>
    if c = doubleQuote then (readLine? rest).map fun (key, rest) => (String.ofList key, rest)
    else if c = singleQuote then
      (readLiteral? rest).map fun (key, rest) => (String.ofList key, rest)
    else match cs.takeWhile isKeyChar with
      | [] => none
      | key => some (String.ofList key, cs.dropWhile isKeyChar)

/-- The parts of a dotted key, at most as many as the fuel, and what follows the blanks after
them. -/
def readPath? : Nat → List Char → Option (List String × List Char)
  | 0, _ => none
  | fuel + 1, cs => do
    let (key, rest) ← readKey? (skipBlanks cs)
    match skipBlanks rest with
    | '.' :: rest => (readPath? fuel rest).map fun (keys, rest) => (key :: keys, rest)
    | rest => some ([key], rest)

/-- The parts of a dotted key before its last one, the last one, and what follows them. -/
def readDottedKey? (cs : List Char) : Option ((List String × String) × List Char) := do
  let (keys, rest) ← readPath? nestingLimit cs
  let last ← keys.getLast?
  some ((keys.dropLast, last), rest)

/-! ### Values -/

mutual

/-- A value and what follows it. Values may nest `room` deep; the fuel bounds their number. -/
def readValue? : (fuel room : Nat) → List Char → Option (Toml × List Char)
  | 0, _, _ => none
  | fuel + 1, room, cs =>
    match cs with
    | [] => none
    | '[' :: rest =>
      match room with
      | 0 => none
      | room + 1 => do
        let rest ← skipGap? false rest
        match rest with
        | ']' :: rest => some (.array [], rest)
        | _ => (readItems? fuel room rest).map fun (items, rest) => (.array items, rest)
    | '\x7b' :: rest =>
      match room with
      | 0 => none
      | room + 1 =>
        match skipBlanks rest with
        | '\x7d' :: rest => some (.table .inline [], rest)
        | rest =>
          (readPairs? fuel room [] rest).map fun (entries, rest) =>
            (.table .inline entries, rest)
    | c :: _ =>
      if c = doubleQuote || c = singleQuote then
        (readText? cs).map fun (front, rest) => (.text (String.ofList front), rest)
      else readWord? cs

/-- The items of an array up to its closing bracket; a comma may follow the last one. -/
def readItems? : (fuel room : Nat) → List Char → Option (List Toml × List Char)
  | 0, _, _ => none
  | fuel + 1, room, cs => do
    let (item, rest) ← readValue? fuel room cs
    let rest ← skipGap? false rest
    match rest with
    | ']' :: rest => some ([item], rest)
    | ',' :: rest => do
      let rest ← skipGap? false rest
      match rest with
      | ']' :: rest => some ([item], rest)
      | _ => (readItems? fuel room rest).map fun (items, rest) => (item :: items, rest)
    | _ => none

/-- The pairs of an inline table up to its closing brace, added to those read so far. -/
def readPairs? : (fuel room : Nat) → Entries → List Char → Option (Entries × List Char)
  | 0, _, _, _ => none
  | fuel + 1, room, entries, cs => do
    let ((path, key), rest) ← readDottedKey? cs
    match rest with
    | '=' :: rest => do
      let (value, rest) ← readValue? fuel room (skipBlanks rest)
      let entries ← addAt path key value .inline entries
      match skipBlanks rest with
      | '\x7d' :: rest => some (entries, rest)
      | ',' :: rest => readPairs? fuel room entries rest
      | _ => none
    | _ => none

end

/-! ### Documents -/

/-- A document read so far: its entries, and the path of the header whose table comes next. -/
structure Document where
  entries : Entries
  here : List String

namespace Document

/-- The document with a header's table opened by `change`. -/
def header (d : Document) (path : List String) (key : String)
    (change : String → Entries → Option Entries) : Option Document := do
  let entries ← alterAt false (fun _ entries => change key entries) path .defined d.entries
  some ⟨entries, path ++ [key]⟩

def pair (d : Document) (path : List String) (key : String) (value : Toml) : Option Document := do
  let entries ← alterAt false (fun standing entries => addAt path key value standing entries)
    d.here .defined d.entries
  some { d with entries }

end Document

def readHeader? (d : Document) (cs : List Char) : Option (Document × List Char) :=
  match cs with
  | '[' :: rest => do
    let ((path, key), rest) ← readDottedKey? rest
    match rest with
    | ']' :: ']' :: rest => do
      let rest ← endLine? false rest
      let d ← d.header path key openSection
      some (d, rest)
    | _ => none
  | _ => do
    let ((path, key), rest) ← readDottedKey? cs
    match rest with
    | ']' :: rest => do
      let rest ← endLine? false rest
      let d ← d.header path key openTable
      some (d, rest)
    | _ => none

def readPair? (d : Document) (cs : List Char) : Option (Document × List Char) := do
  let ((path, key), rest) ← readDottedKey? cs
  match rest with
  | '=' :: rest => do
    let (value, rest) ← readValue? (cs.length + 1) nestingLimit (skipBlanks rest)
    let rest ← endLine? false rest
    let d ← d.pair path key value
    some (d, rest)
  | _ => none

/-- Reads headers and pairs to the end of the text. The fuel bounds their number. -/
def readLines? : Nat → Document → List Char → Option Document
  | 0, _, _ => none
  | fuel + 1, d, cs => do
    let rest ← skipGap? false cs
    match rest with
    | [] => some d
    | '[' :: rest => do
      let (d, rest) ← readHeader? d rest
      readLines? fuel d rest
    | rest => do
      let (d, rest) ← readPair? d rest
      readLines? fuel d rest

/-- A text without a byte order mark at its front. -/
def dropMark : List Char → List Char
  | '\ufeff' :: rest => rest
  | cs => cs

def parse? (text : String) : Option Entries :=
  let cs := dropMark text.toList
  (readLines? (cs.length + 1) ⟨[], []⟩ cs).map (·.entries)

end MachinePool.Toml
