/-
# What a process waits for

The operations of a session run side by side as processes, and a process that is suspended waits
for exactly one thing: a lock, an answer of the store, of the user or of the host, or an instant.
`Need` names that thing, and `Need.Answer` is the type of what the process gets when it goes on.

How long an answer takes, and which one it is, is not decided here.
-/
import Folio.Autosave.Coordinator
import Folio.Autosave.Conflict
import Folio.Document.Widget

namespace Folio

/-- **The locks of a manager**: one guards the contexts in use, the other the widgets in use. -/
inductive LockName where
  | contexts
  | bindings
  deriving DecidableEq, Repr

/-- **How a lock is held**: together with others that hold it shared, or alone. -/
inductive Access where
  | shared
  | exclusive
  deriving DecidableEq, Repr

/-- **Why a timer loop wakes up.** -/
inductive Tick where
  /-- The time is over. -/
  | due
  /-- The timer is to be set anew. -/
  | rescheduled
  /-- The context has announced something. -/
  | announced
  deriving DecidableEq, Repr

/-- **What a process waits for.** -/
inductive Need where
  /-- Nothing: it goes on when its turn comes. -/
  | turn
  /-- A lock. -/
  | lock (name : LockName) (access : Access)
  /-- An answer of the store. -/
  | store (request : StoreRequest)
  /-- An answer of the user to a conflict. -/
  | ask (prompt : ConflictPrompt)
  /-- The host's word on closing the last widget of a document with changes. -/
  | confirm (widget : WidgetId)
  /-- For a loop of a coordinator, by its number: the end of an interval, a wish to set the timer
  anew, or an event of the context at a place. -/
  | tick (coordinator : CoordinatorId) (number : Nat) (context : ContextId) (place : Nat)
      (interval : Duration)
  /-- The end of the first load or save of a context, but not for ever. -/
  | readiness (context : ContextId)
  /-- So many milliseconds. -/
  | pause (millis : Nat)

/-- **What the process gets.** -/
@[reducible] def Need.Answer : Need → Type
  | .turn => Unit
  | .lock _ _ => Unit
  | .store request => request.Reply
  | .ask _ => Resolution
  | .confirm _ => Bool
  | .tick _ _ _ _ _ => Tick
  | .readiness _ => Bool
  | .pause _ => Unit

end Folio
