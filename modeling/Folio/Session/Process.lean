/-
# Processes

Everything that runs in a session is a process: an operation on a context, a call of the manager,
the first load of a context, a timer loop, an attempt to save.  A process is where it is suspended.
`Process.need` says what it waits for and `Process.resume` what it does when it has got that, which
is one uninterrupted step of the session.

Which process goes on when, and what it gets, is for whoever runs them to decide.  Any such choice
is a run of the session.
-/
import Folio.Document.Operation
import Folio.Session.Conduct

namespace Folio

/-- **A process.** -/
inductive Process where
  /-- An operation on a context that has not begun. -/
  | operation (c : ContextId) (op : ContextOp)
  /-- An operation on a context that waits for the store. -/
  | calling (c : ContextId) (call : ContextCall)
  /-- The first save or load of the context of a coordinator, not begun. -/
  | load (k : CoordinatorId) (isNew : Bool)
  /-- The first save or load, waiting for the store. -/
  | loading (k : CoordinatorId) (call : ContextCall)
  /-- A timer loop that is about to set its timer. -/
  | loop (k : CoordinatorId) (number place : Nat)
  /-- A timer loop that waits. -/
  | ticking (k : CoordinatorId) (number place : Nat) (c : ContextId) (interval : Duration)
  /-- An attempt to save. -/
  | attempt (k : CoordinatorId) (stage : Attempt)
  /-- A call of the manager. -/
  | manager (stage : Stage)
  /-- Somebody who waits until a context is loaded. -/
  | awaitReady (c : ContextId)
  /-- Somebody who lets time pass. -/
  | pause (millis : Nat)

/-- **How a process ends.** -/
inductive Outcome where
  /-- Nobody waits for it. -/
  | silent
  | context (result : ContextResult)
  | manager (result : ManagerResult)
  /-- The context is loaded, or was not in time (`none`). -/
  | readiness (result : Option (Except ContextError Unit))
  | paused

/-- What an attempt waits for. -/
@[reducible] def Attempt.need : Attempt → Need
  | .due => .turn
  | .checking path => .store (.get path false)
  | .asking prompt => .ask prompt
  | .reverting path => .store (.get path true)
  | .saving _ path request => .store (.save path request)

/-- **Goes on with an attempt** that has got what it waited for. -/
def Attempt.resume (s : Scene) : (a : Attempt) → a.need.Answer → Scene × Option Attempt
  | .due, () => begin s
  | .checking _, reply => afterCheck s reply
  | .asking _, answer => afterAnswer s answer
  | .reverting path, reply => (afterRevert s path reply, none)
  | .saving since _ _, reply => (afterSave s since reply, none)

namespace Process

/-- **What a process waits for.** -/
@[reducible] def need : Process → Need
  | .operation _ _ => .turn
  | .calling _ call => .store call.request
  | .load _ _ => .turn
  | .loading _ call => .store call.request
  | .loop _ _ _ => .turn
  | .ticking k number place c interval => .tick k number c place interval
  | .attempt _ stage => stage.need
  | .manager stage => stage.need
  | .awaitReady c => .readiness c
  | .pause millis => .pause millis

/-- **The locks that a process holds** while it waits. -/
def holds : Process → List (LockName × Access)
  | .manager stage => stage.holds
  | _ => []

/-- The process that does background work. -/
def ofBackground : Background → Process
  | .load k isNew => .load k isNew
  | .loop k number place => .loop k number place
  | .attempt k => .attempt k .due

/-- **What follows**: the session and how the process goes on, or how it ends. -/
abbrev Step : Type := Session × (Process ⊕ Outcome)

/-- The process ends, and nobody waits for it. -/
def finish (s : Session) : Step := (s, .inr .silent)

/-! ## 1. Loads -/

/-- The first save or load is over.  If it succeeded and autosave is on, the coordinator starts. -/
def finishLoad (s : Session) (k : CoordinatorId) : ContextResult → Step
  | .ok _ => finish (if s.manager.settings.enabled then s.startCoordinator k else s)
  | .error _ => finish s

/-- Goes on with the first save or load. -/
def resumeLoad (s : Session) (k : CoordinatorId) (call : ContextCall) (reply : call.request.Reply) :
    Step :=
  let c := (s.coordinator k).context
  match ContextCall.resume (s.context c) call reply with
  | (context, .again call) => (s.setContext c context, .inl (.loading k call))
  | (context, .done result) => finishLoad (s.setContext c context) k result

/-! ## 2. Timer loops -/

/-- **A timer loop wakes up.**  When its time is over it starts an attempt, and in any case it sets
its timer anew; only the end of the context ends it.  A loop that was stopped meanwhile does
nothing more. -/
def resumeLoop (s : Session) (k : CoordinatorId) (number place : Nat) (c : ContextId) (t : Tick) :
    Step :=
  let coordinator := s.coordinator k
  if !coordinator.runs number then finish s
  else
    match t with
    | .due => (s.start (.attempt k), .inl (.loop k number place))
    | .rescheduled => (s.setCoordinator k coordinator.takeReschedule, .inl (.loop k number place))
    | .announced =>
      match (s.context c).events.receive place with
      | (.value .disposed, _) => finish (s.setCoordinator k coordinator.endLoop)
      | (_, place) => (s, .inl (.loop k number place))

/-! ## 3. All processes -/

/-- **Goes on with a process** that has got what it waited for. -/
def resume (s : Session) : (p : Process) → p.need.Answer → Step
  | .operation c op, () =>
    match op.begin (s.context c) with
    | .ok call => (s, .inl (.calling c call))
    | .error e => (s, .inr (.context (.error e)))
  | .calling c call, reply =>
    match ContextCall.resume (s.context c) call reply with
    | (context, .again call) => (s.setContext c context, .inl (.calling c call))
    | (context, .done result) => (s.setContext c context, .inr (.context result))
  | .load k isNew, () =>
    match (ContextOp.populate isNew).begin (s.context (s.coordinator k).context) with
    | .ok call => (s, .inl (.loading k call))
    | .error _ => finish s
  | .loading k call, reply => resumeLoad s k call reply
  | .loop k number place, () =>
    let coordinator := s.coordinator k
    if coordinator.runs number then
      (s, .inl (.ticking k number place coordinator.context coordinator.current))
    else finish s
  | .ticking k number place c _, t => resumeLoop s k number place c t
  | .attempt k stage, answer =>
    match Attempt.resume (s.scene k) stage answer with
    | (scene, some stage) => (s.setScene k scene, .inl (.attempt k stage))
    | (scene, none) => finish (s.setScene k scene)
  | .manager stage, answer =>
    match stage.resume s answer with
    | (s, .inl stage) => (s, .inl (.manager stage))
    | (s, .inr result) => (s, .inr (.manager result))
  | .awaitReady c, inTime =>
    (s, .inr (.readiness (if inTime then some (s.context c).readiness else none)))
  | .pause _, () => (s, .inr .paused)

end Process

end Folio
