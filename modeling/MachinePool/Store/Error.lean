/-!
Failures of the inventory store and their texts.
-/

namespace MachinePool

inductive StoreError where
  | openFailed (cause : String)
  | transactionFailed (cause : String)
  | tableFailed (cause : String)
  | readFailed (cause : String)
  | writeFailed (cause : String)
  | encodingFailed (cause : String)
  | decodingFailed (cause : String)
  | notFound (what : String)
  | invalid (key reason : String)
  /-- The stored record was written since the caller read it. -/
  | conflict (key : String) (expected found : UInt64)
  deriving DecidableEq, Repr

namespace StoreError

def message : StoreError → String
  | openFailed cause => "failed to open database: " ++ cause
  | transactionFailed cause => "transaction error: " ++ cause
  | tableFailed cause => "table error: " ++ cause
  | readFailed cause => "read error: " ++ cause
  | writeFailed cause => "write error: " ++ cause
  | encodingFailed cause => "serialization error: " ++ cause
  | decodingFailed cause => "deserialization error: " ++ cause
  | notFound what => "not found: " ++ what
  | invalid key reason => "invalid record " ++ key ++ ": " ++ reason
  | conflict key expected found =>
    "conflict on " ++ key ++ ": expected version " ++ toString expected.toNat ++ ", found " ++
      toString found.toNat

/-- Whether the caller's copy was outdated. -/
def isConflict : StoreError → Bool
  | conflict _ _ _ => true
  | _ => false

end StoreError

end MachinePool
