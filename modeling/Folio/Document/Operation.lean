/-
# Operations on a context in progress

`ContextOp` is what can be asked of a context.  `ContextOp.begin` looks whether the context is
live and gives the operation as it waits for the store, a `ContextCall`; `ContextCall.resume` takes
the answer and either is done or waits for a further call.  Between the two, anything may happen
to the context: each part works on the context as it finds it.
-/
import Folio.Document.Context

namespace Folio

/-- **An operation on a context.** -/
inductive ContextOp where
  /-- The first save of a new document, or the first load of one that exists. -/
  | populate (isNew : Bool)
  | save
  | revert
  | fetchMetadata
  | rename (target : String)
  | createCheckpoint
  | listCheckpoints
  | restoreCheckpoint (id : String)
  deriving DecidableEq, Repr

/-- **An operation that waits for the store**, with the path that it was begun for.  `first` marks
the first load or save. -/
inductive ContextCall where
  | saving (path : String) (request : SaveRequest) (first : Bool)
  | reverting (path : String) (first : Bool)
  | fetching (path : String)
  | renaming (path target : String)
  | checkpointing (path : String)
  | listing (path : String)
  | restoring (path id : String)

/-- **What a successful operation gives.** -/
inductive ContextReply where
  | done
  | metadata (m : Metadata)
  | checkpoint (c : Checkpoint)
  | checkpoints (cs : List Checkpoint)
  deriving DecidableEq, Repr

/-- The outcome of an operation. -/
abbrev ContextResult : Type := Except ContextError ContextReply

/-- The call of the store that an operation waits for. -/
@[reducible] def ContextCall.request : ContextCall → StoreRequest
  | .saving path request _ => .save path request
  | .reverting path _ => .get path true
  | .fetching path => .get path false
  | .renaming path target => .rename path target
  | .checkpointing path => .createCheckpoint path
  | .listing path => .listCheckpoints path
  | .restoring path id => .restoreCheckpoint path id

/-- The operation as it waits for the store, were the context live. -/
def ContextOp.call (c : Context) : ContextOp → ContextCall
  | .populate true => .saving c.path c.saveRequest true
  | .populate false => .reverting c.path true
  | .save => .saving c.path c.saveRequest false
  | .revert => .reverting c.path false
  | .fetchMetadata => .fetching c.path
  | .rename target => .renaming c.path target
  | .createCheckpoint => .checkpointing c.path
  | .listCheckpoints => .listing c.path
  | .restoreCheckpoint id => .restoring c.path id

/-- **Begins an operation.**  On a closed context nothing is begun. -/
def ContextOp.begin (op : ContextOp) (c : Context) : Except ContextError ContextCall :=
  c.requireLive.map fun () => op.call c

/-- **What follows an answer of the store**: a further call, or the result. -/
inductive ContextStep where
  | again (call : ContextCall)
  | done (result : ContextResult)

/-- The end of an operation that gives nothing; `first` marks the first load or save. -/
def ContextCall.conclude (first : Bool) (outcome : Context × Except ContextError Unit) :
    Context × ContextStep :=
  (if first then outcome.1.settle outcome.2 else outcome.1,
    .done (outcome.2.map fun () => .done))

/-- **Takes the answer of the store.**  After a checkpoint is restored the document is reloaded,
from where it is by then. -/
def ContextCall.resume (c : Context) :
    (call : ContextCall) → call.request.Reply → Context × ContextStep
  | .saving _ _ first, reply => conclude first (c.afterSave reply)
  | .reverting path first, reply => conclude first (c.afterRevert path reply)
  | .fetching _, reply =>
    (c, .done ((reply.map fun file => .metadata file.metadata).mapError .store))
  | .renaming _ target, reply => conclude false (c.afterRename target reply)
  | .checkpointing _, reply => (c, .done ((reply.map .checkpoint).mapError .store))
  | .listing _, reply => (c, .done ((reply.map .checkpoints).mapError .store))
  | .restoring _ _, .error e => (c, .done (.error (.store e)))
  | .restoring _ _, .ok () =>
    match ContextOp.revert.begin c with
    | .ok call => (c, .again call)
    | .error e => (c, .done (.error e))

end Folio
