import MachinePool.Text.Digits

/-!
The four ways to write a text in TOML, and how they are read.

A text is written between single or triple quotes, of the double kind, where a
backslash begins an escape, or of the other kind, where every character stands
for itself. `styleOf` chooses the plainest way that needs no escapes, and escapes
only what no way can hold otherwise. A triple-quoted text that holds a newline
begins on a line of its own.

Inside double quotes a tab is read as it stands but written as an escape.
-/

namespace MachinePool.Toml

open Text

def doubleQuote : Char := '\x22'

def singleQuote : Char := '\x27'

inductive Style where
  /-- Between double quotes. -/
  | basic
  /-- Between single quotes, without escapes. -/
  | literal
  /-- Between triple double quotes. -/
  | blockBasic
  /-- Between triple single quotes, without escapes. -/
  | blockLiteral
  deriving DecidableEq, Repr

/-- Whether a character needs an escape in every style: a control other than tab and newline. -/
def isControl (c : Char) : Bool := (c < ' ' && c != '\t' && c != '\n') || c == '\x7f'

/-- The length of the longest run of a character, when the run at the front already has length
`here`. -/
def longestRunFrom (q : Char) (here : Nat) : List Char → Nat
  | [] => here
  | c :: cs => if c = q then longestRunFrom q (here + 1) cs else max here (longestRunFrom q 0 cs)

def longestRun (q : Char) (cs : List Char) : Nat := longestRunFrom q 0 cs

def styleOf (cs : List Char) : Style :=
  let controls := cs.any isControl
  let escapes := controls || cs.contains '\\'
  let lines := cs.contains '\n'
  if !escapes && !lines && longestRun doubleQuote cs = 0 then .basic
  else if !controls && !lines && longestRun singleQuote cs = 0 then .literal
  else if !escapes && longestRun doubleQuote cs ≤ 2 then .blockBasic
  else if !controls && longestRun singleQuote cs ≤ 2 then .blockLiteral
  else if lines then .blockBasic
  else .basic

/-! ### Writing -/

/-- A character other than a quote between double quotes, on one line or in a block. -/
def escapeChar (block : Bool) (c : Char) : List Char :=
  if c = '\x08' then ['\\', 'b']
  else if c = '\t' then ['\\', 't']
  else if c = '\n' then (if block then ['\n'] else ['\\', 'n'])
  else if c = '\x0c' then ['\\', 'f']
  else if c = '\r' then ['\\', 'r']
  else if c = '\\' then ['\\', '\\']
  else if isControl c then ['\\', 'u'] ++ fourHexDigits upperHexDigit c.toNat
  else [c]

def escapeLine : List Char → List Char
  | [] => []
  | c :: cs =>
    (if c = doubleQuote then ['\\', doubleQuote] else escapeChar false c) ++ escapeLine cs

/-- A text between triple double quotes, of which `quotes` stand right before: a third quote in a
row is escaped. -/
def escapeBlock (quotes : Nat) : List Char → List Char
  | [] => []
  | c :: cs =>
    if c = doubleQuote then
      if quotes < 2 then doubleQuote :: escapeBlock (quotes + 1) cs
      else ['\\', doubleQuote] ++ escapeBlock 0 cs
    else escapeChar true c ++ escapeBlock 0 cs

/-- The newline after the opening quotes of a block. -/
def blockStart (cs : List Char) : List Char := if cs.contains '\n' then ['\n'] else []

def writeIn (style : Style) (cs : List Char) : List Char :=
  match style with
  | .basic => doubleQuote :: escapeLine cs ++ [doubleQuote]
  | .literal => singleQuote :: cs ++ [singleQuote]
  | .blockBasic =>
    List.replicate 3 doubleQuote ++ blockStart cs ++ escapeBlock 0 cs ++
      List.replicate 3 doubleQuote
  | .blockLiteral =>
    List.replicate 3 singleQuote ++ blockStart cs ++ cs ++ List.replicate 3 singleQuote

/-- A text in the style that suits it. -/
def writeText (s : String) : List Char := writeIn (styleOf s.toList) s.toList

/-! ### Reading -/

/-- Whether a character may stand in a text or a comment as it is. -/
def isPlain (c : Char) : Bool := (' ' ≤ c || c == '\t') && c != '\x7f'

def isBlank (c : Char) : Bool := c == ' ' || c == '\t'

/-- The character with a code point, unless it is half of a surrogate pair or out of range. -/
def scalar? (n : Nat) : Option Char :=
  if n < 0xd800 ∨ (0xe000 ≤ n ∧ n ≤ 0x10ffff) then some (Char.ofNat n) else none

def escapedChar? (c : Char) : Option Char :=
  if c = 'b' then some '\x08'
  else if c = 't' then some '\t'
  else if c = 'n' then some '\n'
  else if c = 'f' then some '\x0c'
  else if c = 'r' then some '\r'
  else if c = doubleQuote then some doubleQuote
  else if c = '\\' then some '\\'
  else none

def consText (c : Char) (read : Option (List Char × List Char)) :
    Option (List Char × List Char) :=
  read.map fun (front, rest) => (c :: front, rest)

/-- A text up to its closing double quote, and what follows it. -/
def readLine? : List Char → Option (List Char × List Char)
  | [] => none
  | '\\' :: 'u' :: a :: b :: c :: d :: rest => do
    let n ← readDigits? 16 [a, b, c, d]
    let c ← scalar? n
    consText c (readLine? rest)
  | '\\' :: 'U' :: a :: b :: c :: d :: e :: f :: g :: h :: rest => do
    let n ← readDigits? 16 [a, b, c, d, e, f, g, h]
    let c ← scalar? n
    consText c (readLine? rest)
  | '\\' :: e :: rest => do
    let c ← escapedChar? e
    consText c (readLine? rest)
  | c :: rest =>
    if c = doubleQuote then some ([], rest)
    else if isPlain c && c != '\\' then consText c (readLine? rest)
    else none

def readLiteral? : List Char → Option (List Char × List Char)
  | [] => none
  | c :: rest =>
    if c = singleQuote then some ([], rest)
    else if isPlain c then consText c (readLiteral? rest)
    else none

/-- After the triple quote that ends a block: up to two more quotes belong to the text. -/
def closeBlock (q : Char) (rest : List Char) : List Char × List Char :=
  match rest with
  | a :: b :: rest' =>
    if a = q then if b = q then ([q, q], rest') else ([q], b :: rest') else ([], rest)
  | [a] => if a = q then ([q], []) else ([], rest)
  | [] => ([], [])

def startsTriple (q : Char) (cs : List Char) : Bool := cs.take 3 == [q, q, q]

/-- Whether a backslash before these characters ends its line. -/
def endsLine (cs : List Char) : Bool :=
  match cs.dropWhile isBlank with
  | '\n' :: _ => true
  | '\r' :: '\n' :: _ => true
  | _ => false

/-- A block up to its closing triple double quote, and what follows it. While `skipping`, blanks
and newlines after a backslash at the end of a line are left out. -/
def readBlock? (skipping : Bool) : List Char → Option (List Char × List Char)
  | [] => none
  | '\\' :: 'u' :: a :: b :: c :: d :: rest => do
    let n ← readDigits? 16 [a, b, c, d]
    let c ← scalar? n
    consText c (readBlock? false rest)
  | '\\' :: 'U' :: a :: b :: c :: d :: e :: f :: g :: h :: rest => do
    let n ← readDigits? 16 [a, b, c, d, e, f, g, h]
    let c ← scalar? n
    consText c (readBlock? false rest)
  | '\r' :: '\n' :: rest =>
    if skipping then readBlock? true rest else consText '\n' (readBlock? false rest)
  | '\\' :: e :: rest =>
    if endsLine (e :: rest) then readBlock? true rest
    else do
      let c ← escapedChar? e
      consText c (readBlock? false rest)
  | c :: rest =>
    if c = doubleQuote then
      if startsTriple doubleQuote (c :: rest) then
        some (closeBlock doubleQuote (rest.drop 2))
      else consText c (readBlock? false rest)
    else if c = '\n' || isBlank c then
      if skipping then readBlock? true rest else consText c (readBlock? false rest)
    else if isPlain c && c != '\\' then consText c (readBlock? false rest)
    else none

def readLiteralBlock? : List Char → Option (List Char × List Char)
  | [] => none
  | '\r' :: '\n' :: rest => consText '\n' (readLiteralBlock? rest)
  | c :: rest =>
    if c = singleQuote then
      if startsTriple singleQuote (c :: rest) then
        some (closeBlock singleQuote (rest.drop 2))
      else consText c (readLiteralBlock? rest)
    else if isPlain c || c = '\n' then consText c (readLiteralBlock? rest)
    else none

def dropNewline : List Char → List Char
  | '\n' :: rest => rest
  | '\r' :: '\n' :: rest => rest
  | cs => cs

/-- A text in any style, and what follows it. -/
def readText? (cs : List Char) : Option (List Char × List Char) :=
  if startsTriple doubleQuote cs then readBlock? false (dropNewline (cs.drop 3))
  else if startsTriple singleQuote cs then readLiteralBlock? (dropNewline (cs.drop 3))
  else match cs with
    | c :: rest =>
      if c = doubleQuote then readLine? rest
      else if c = singleQuote then readLiteral? rest
      else none
    | [] => none

end MachinePool.Toml
