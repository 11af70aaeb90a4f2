/-
# An attempt to save

Each firing of the timer starts one attempt.  It saves only if the coordinator is active, the model
has changes and may be persisted, and no conflict is being dealt with.  Before it saves it asks the
store for the metadata of the file: if someone else has written it, the user decides; if the store
does not answer, the attempt saves anyway.

An attempt is suspended while it waits for the store or the user.  Each constructor of `Attempt` is
one such place, and `Attempt.resume` is what is done between two of them.
-/
import Folio.Autosave.Coordinator
import Folio.Autosave.Conflict

namespace Folio

/-- **An attempt, by what it waits for.** -/
inductive Attempt where
  /-- It has not begun. -/
  | due
  /-- It waits for the metadata of the file. -/
  | checking (path : String)
  /-- It waits for the user. -/
  | asking (prompt : ConflictPrompt)
  /-- The user wants the file as it is in the store; it waits for that. -/
  | reverting (path : String)
  /-- It waits for its save, begun at a time. -/
  | saving (since : Nat) (path : String) (request : SaveRequest)

namespace Attempt

/-- **What an attempt acts on**: the time in milliseconds, its coordinator and its context. -/
structure Scene where
  now : Nat
  coordinator : Coordinator
  context : Context

/-- Saves, if the coordinator is still active and the context live. -/
def beginSave (s : Scene) : Scene × Option Attempt :=
  if s.coordinator.active && !s.context.isDisposed then
    (s, some (.saving s.now s.context.path s.context.saveRequest))
  else (s, none)

/-- Begins: asks the store for the metadata if there is something to save. -/
def begin (s : Scene) : Scene × Option Attempt :=
  let model := s.context.model
  if !s.coordinator.active || !model.dirty || model.readOnly || s.coordinator.arbitrating then
    (s, none)
  else if s.context.isDisposed then beginSave s
  else (s, some (.checking s.context.path))

/-- **The metadata are there.**  A time of modification other than the known one is a conflict,
which is put to the user unless there is one already. -/
def afterCheck (s : Scene) (reply : Except StoreError RemoteFile) : Scene × Option Attempt :=
  match reply with
  | .error _ => beginSave s
  | .ok file =>
    let known := s.context.remote.map (·.lastModified)
    if known = some file.metadata.lastModified then beginSave s
    else if s.coordinator.arbitrating then (s, none)
    else
      ({ s with coordinator := s.coordinator.openConflict },
        some (.asking ⟨s.context.path, known, file.metadata.lastModified⟩))

/-- **The user has decided.** -/
def afterAnswer (s : Scene) (answer : Resolution) : Scene × Option Attempt :=
  let released := { s with coordinator := s.coordinator.closeConflict }
  match answer with
  | .cancel => (released, none)
  | .overwrite => beginSave released
  | .revert =>
    if s.context.isDisposed then (released, none) else (s, some (.reverting s.context.path))

/-- The reload that the user wanted is over, with whatever outcome. -/
def afterRevert (s : Scene) (path : String) (reply : Except StoreError RemoteFile) : Scene :=
  { s with
    context := (s.context.afterRevert path reply).1
    coordinator := s.coordinator.closeConflict }

/-- The save is over; if it succeeded, the interval adapts to the time it took. -/
def afterSave (s : Scene) (since : Nat) (reply : Except StoreError Metadata) : Scene :=
  let (context, result) := s.context.afterSave reply
  match result with
  | .error _ => { s with context }
  | .ok () =>
    { s with context, coordinator := s.coordinator.recalibrate (.ofMillis (s.now - since)) }

end Attempt

end Folio
