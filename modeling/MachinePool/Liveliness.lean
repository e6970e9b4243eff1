/-!
Health of machines as last reported.
-/

namespace MachinePool

inductive Liveliness where
  | alive
  | dead
  | unknown
  deriving DecidableEq, Repr

namespace Liveliness

def word : Liveliness → String
  | alive => "alive"
  | dead => "dead"
  | unknown => "unknown"

/-- The word an operator is shown. -/
def displayName : Liveliness → String
  | alive => "Alive"
  | dead => "Dead"
  | unknown => "Unknown"

/-- The health a word names, whatever the case of its ASCII letters; a word that names none is
given back in lower case. -/
def ofWord (s : String) : Except String Liveliness :=
  let lowered := String.ofList (s.toList.map Char.toLower)
  if lowered = "alive" then .ok alive
  else if lowered = "dead" then .ok dead
  else if lowered = "unknown" then .ok unknown
  else .error lowered

def unknownWordMessage (lowered : String) : String := "unknown liveliness: " ++ lowered

end Liveliness

structure Heartbeat where
  machine : String
  liveliness : Liveliness
  /-- Seconds since the epoch. -/
  time : UInt64
  deriving DecidableEq, Repr

end MachinePool
