import MachinePool.Text.Digits
import MachinePool.Text.Printable

/-!
Quoted texts, as messages show a word that could not be read: between double
quotes, with what a reader could not see written as an escape.
-/

namespace MachinePool.Text

def quotedChar (c : Char) : List Char :=
  if c = '\x00' then ['\\', '0']
  else if c = '\t' then ['\\', 't']
  else if c = '\r' then ['\\', 'r']
  else if c = '\n' then ['\\', 'n']
  else if c = '\x22' then ['\\', '\x22']
  else if c = '\\' then ['\\', '\\']
  else if isExtending c || isFiller c || !isPrintable c then
    ['\\', 'u', '\x7b'] ++ hexNumeral c.toNat ++ ['\x7d']
  else [c]

/-- A text in double quotes: quotes and backslashes are escaped, common controls have a letter,
and whatever prints nothing of its own is shown by its code point. -/
def quoted (s : String) : String :=
  String.ofList ('\x22' :: s.toList.flatMap quotedChar ++ ['\x22'])

example : quoted "a\tb" = "\"a\\tb\"" := by decide +kernel

end MachinePool.Text
