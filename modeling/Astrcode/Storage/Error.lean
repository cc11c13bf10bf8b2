import Astrcode.Core.Event

/-!
# Storage errors

`astrcode-storage/src/error.rs`. The wrapped I/O and serialisation errors are kept
as their texts, which is all the callers pass on.
-/
namespace Astrcode

inductive StorageError where
  | notFound (sessionId : SessionId)
  | alreadyExists (sessionId : SessionId)
  | io (message : String)
  | serialization (message : String)
  | invalidId (message : String)
  | invalidEvent (message : String)
  | durabilityUncertain (sessionId : SessionId) (throughSeq : Nat) (reason : String)
  | corruptLog (message : String)
  | lockError (message : String)
  | unsupported (message : String)
  deriving DecidableEq

/-- The text a storage error is shown as. -/
def StorageError.display : StorageError → String
  | .notFound sessionId => "Session not found: " ++ sessionId
  | .alreadyExists sessionId => "Session already exists: " ++ sessionId
  | .io message => "IO error: " ++ message
  | .serialization message => "Serialization error: " ++ message
  | .invalidId message => "Invalid session ID: " ++ message
  | .invalidEvent message => "Invalid durable event: " ++ message
  | .durabilityUncertain sessionId throughSeq reason =>
    "Durability is uncertain for session " ++ sessionId ++ " through seq " ++ toString throughSeq ++
      ": " ++ reason
  | .corruptLog message => "Corrupt session event log: " ++ message
  | .lockError message => "Lock error: " ++ message
  | .unsupported message => "Unsupported storage operation: " ++ message

end Astrcode
