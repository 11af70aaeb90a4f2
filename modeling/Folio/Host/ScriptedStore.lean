/-
# A store that follows a script

The store in memory, as the session sees it through a wrapper: calls can be delayed and can be made
to fail, by the name of the call, and reads can be made to come without content.
-/
import Folio.Store.InMemory

namespace Folio

/-- The name of a call of the store. -/
def StoreRequest.callName : StoreRequest → String
  | .get _ true => "get"
  | .get _ false => "stat"
  | .save _ _ => "save"
  | .rename _ _ => "rename"
  | .delete _ => "delete"
  | .createCheckpoint _ => "checkpoint"
  | .listCheckpoints _ => "checkpoints"
  | .restoreCheckpoint _ _ => "restore"

namespace Host

/-- **The store and its script.** -/
structure ScriptedStore where
  memory : MemoryStore := {}
  /-- How long calls take, in milliseconds, by their names. -/
  delays : Table String Nat := .empty
  /-- The failures to come, by the names of the calls that will fail. -/
  failures : List (String × StoreError) := []
  stripContent : Bool := false

namespace ScriptedStore

/-- How long a call takes. -/
def delay (s : ScriptedStore) (r : StoreRequest) : Nat := (s.delays.get? r.callName).getD 0

/-- The next failure of a call, which is used up. -/
def takeFailure (s : ScriptedStore) (r : StoreRequest) : Option (StoreError × ScriptedStore) :=
  (s.failures.find? (·.1 == r.callName)).map fun f =>
    (f.2, { s with failures := s.failures.eraseP (·.1 == r.callName) })

/-- Takes the content out of what was read, if the script says so. -/
def strip (s : ScriptedStore) : (r : StoreRequest) → r.Reply → r.Reply
  | .get _ _, reply =>
    if s.stripContent then reply.map fun file => { file with content := none } else reply
  | .save _ _, reply => reply
  | .rename _ _, reply => reply
  | .delete _, reply => reply
  | .createCheckpoint _, reply => reply
  | .listCheckpoints _, reply => reply
  | .restoreCheckpoint _ _, reply => reply

/-- Calls the store in memory, all at once. -/
def perform (s : ScriptedStore) (r : StoreRequest) : ScriptedStore × r.Reply :=
  let (memory, reply) := s.memory.perform r
  let s := { s with memory }
  (s, s.strip r reply)

/-- Counts a save that is to be done later. -/
def countSave (s : ScriptedStore) : ScriptedStore := { s with memory := s.memory.countSave }

/-- Does a save that was counted before. -/
def commit (s : ScriptedStore) (path : String) (request : SaveRequest) :
    ScriptedStore × Except StoreError Metadata :=
  let (memory, reply) := s.memory.commit path request.content
  ({ s with memory }, reply)

end ScriptedStore

end Host

end Folio
