/-
# A session in its world

The session, the scripted store, the host's scripted answers, and the processes that run, all in
one value.  Time is virtual and moves only when every process waits.

A process that needs something is served by the world: a lock when its turn in the queue has come,
the store, the user and the host after a delay from the script, a timer at its instant.  `serve` is
this one step; it gives the answer or says what is being waited for.

A timer loop waits for several things at once, and where several of them are there it takes one.
Which one is not settled by the program, so the world says where it begins to look (`lookFirst`).
-/
import Folio.Host.Catalog
import Folio.Host.Lock
import Folio.Host.ScriptedStore

namespace Folio.Host

/-! ## 1. Tasks -/

/-- **What a task does.** -/
inductive Activity where
  /-- A command that has not begun. -/
  | command (command : Command)
  /-- A process of the session. -/
  | process (p : Process)
  /-- A save straight to the store in memory. -/
  | saving (path : String) (request : SaveRequest)

/-- **What happens when a timer is over.** -/
inductive Pending where
  /-- The wait is over, and what was waited for goes on. -/
  | over
  /-- The store in memory does the save that it has taken its time over. -/
  | commit
  /-- The user answers. -/
  | answered (answer : Resolution)
  /-- The host answers. -/
  | agree (answer : Bool)
  deriving DecidableEq, Repr

/-- **How far what a task needs has come.** -/
inductive Waiting where
  /-- The need is new. -/
  | fresh
  /-- The task stands in the queue of a lock. -/
  | queued
  /-- A timer runs until an instant.  Timers are numbered in the order in which they were set. -/
  | timed (due order : Nat) (pending : Pending)
  deriving DecidableEq, Repr

/-- **A task.**  `job` is its label if the host wants to know how it ends. -/
structure Task where
  activity : Activity
  waiting : Waiting := .fresh
  job : Option Nat := none

/-- The timer of a task: its instant and its number. -/
def Task.timer? (t : Task) : Option (Nat × Nat) :=
  match t.waiting with
  | .timed due order _ => some (due, order)
  | _ => none

/-- A coordinator in the hands of the host; `own` says that the host made it. -/
structure HeldCoordinator where
  coordinator : CoordinatorId
  own : Bool
  deriving DecidableEq, Repr

/-- **The world.**  Tasks stand in the order in which they began to wait; `ready` are those that
can go on, in order.  The foreground is no task of the table; it has the number zero. -/
structure World where
  session : Session
  store : ScriptedStore := {}
  /-- The user's answers to come, each with its delay. -/
  dialog : List (Resolution × Nat) := []
  /-- The user's answer when the script is at its end. -/
  autoResolve : Resolution := .cancel
  /-- The host's answers to come, each with its delay; it agrees when the script is at its end. -/
  confirms : List (Bool × Nat) := []
  contextsLock : Lock := {}
  bindingsLock : Lock := {}
  tasks : List (Nat × Task) := []
  nextTask : Nat := 1
  ready : List Nat := []
  timerCount : Nat := 0
  log : List (Nat × LogEntry) := []
  /-- The number of lifecycle events that are in the log. -/
  told : Nat := 0
  held : List HeldHandle := []
  /-- Coordinators by their labels; none where the host has given one up. -/
  coordinators : List (Option HeldCoordinator) := []
  jobCount : Nat := 0
  /-- The reason to wake up that a timer loop looks for first. -/
  lookFirst : Tick := .due

namespace World

/-- The time in milliseconds. -/
def now (w : World) : Nat := w.session.now

/-- Adds an entry to the log. -/
def note (w : World) (e : LogEntry) : World := { w with log := w.log ++ [(w.now, e)] }

/-- No timer runs longer than thirty years of 365 days, in milliseconds. -/
def longestWait : Nat := 946080000000

/-- Sets a timer; one that would run too long is cut short. -/
def setTimer (w : World) (millis : Nat) (pending : Pending) : World × Waiting :=
  ({ w with timerCount := w.timerCount + 1 },
    .timed (w.now + Nat.min millis longestWait) w.timerCount pending)

/-! ## 2. Locks -/

/-- A lock by its name. -/
def lock (w : World) : LockName → Lock
  | .contexts => w.contextsLock
  | .bindings => w.bindingsLock

/-- Replaces a lock. -/
def setLock (w : World) (name : LockName) (lock : Lock) : World :=
  match name with
  | .contexts => { w with contextsLock := lock }
  | .bindings => { w with bindingsLock := lock }

/-- Gives the locks back that a task does not keep. -/
def releaseExcept (w : World) (id : Nat) (kept : List (LockName × Access)) : World :=
  [LockName.bindings, .contexts].foldl
    (fun w name =>
      if kept.any (·.1 == name) then w else w.setLock name ((w.lock name).release id))
    w

/-! ## 3. The store, the user and the host -/

/-- Does a save of the store in memory that was counted before. -/
def commit (w : World) (path : String) (request : SaveRequest) :
    World × Except StoreError Metadata :=
  let (store, reply) := w.store.commit path request
  ({ w with store }, reply)

/-- Counts a save and does it, or sets a timer for it if saves take their time. -/
def beginCommit (w : World) (path : String) (request : SaveRequest) :
    World × (Except StoreError Metadata ⊕ Waiting) :=
  let w := { w with store := w.store.countSave }
  match w.store.memory.saveDelay with
  | none | some 0 => let (w, reply) := w.commit path request; (w, .inl reply)
  | some millis => let (w, waiting) := w.setTimer millis .commit; (w, .inr waiting)

/-- Calls the store after the delay of the call. -/
def callStore (w : World) : (r : StoreRequest) → World × (r.Reply ⊕ Waiting)
  | .save path request =>
    match w.store.takeFailure (.save path request) with
    | some (e, store) => ({ w with store }, .inl (.error e))
    | none => w.beginCommit path request
  | r =>
    match w.store.takeFailure r with
    | some (e, store) => ({ w with store }, .inl (.error e))
    | none => let (store, reply) := w.store.perform r; ({ w with store }, .inl reply)

/-- Begins a call of the store: it is logged, and takes its delay. -/
def beginStore (w : World) (r : StoreRequest) : World × (r.Reply ⊕ Waiting) :=
  let w := w.note (.store r)
  match w.store.delay r with
  | 0 => w.callStore r
  | millis => let (w, waiting) := w.setTimer millis .over; (w, .inr waiting)

/-- The user answers. -/
def finishAsk (w : World) (answer : Resolution) : World × (Resolution ⊕ Waiting) :=
  (w.note (.answered answer), .inl answer)

/-- Puts a conflict to the user. -/
def beginAsk (w : World) (prompt : ConflictPrompt) : World × (Resolution ⊕ Waiting) :=
  let w := w.note (.ask prompt)
  match w.dialog with
  | [] => w.finishAsk w.autoResolve
  | (answer, 0) :: rest => { w with dialog := rest }.finishAsk answer
  | (answer, millis) :: rest =>
    let (w, waiting) := { w with dialog := rest }.setTimer millis (.answered answer)
    (w, .inr waiting)

/-- Asks the host whether a widget may be closed. -/
def beginConfirm (w : World) (widget : WidgetId) : World × (Bool ⊕ Waiting) :=
  let w := w.note (.confirm widget)
  match w.confirms with
  | [] => (w, .inl true)
  | (answer, 0) :: rest => ({ w with confirms := rest }, .inl answer)
  | (answer, millis) :: rest =>
    let (w, waiting) := { w with confirms := rest }.setTimer millis (.agree answer)
    (w, .inr waiting)

/-! ## 4. Waking up -/

/-- The order in which a timer loop looks for reasons to wake up: once around, from the first. -/
def rounds : Tick → List Tick
  | .due => [.due, .rescheduled, .announced]
  | .rescheduled => [.rescheduled, .announced, .due]
  | .announced => [.announced, .due, .rescheduled]

/-- A timer loop has this reason to wake up; one that was stopped wakes up to end.  `due?` is the
instant at which its timer is over, if it is set. -/
def hasReason (w : World) (k : CoordinatorId) (number : Nat) (c : ContextId) (place : Nat)
    (due? : Option Nat) : Tick → Bool
  | .due => due?.any (· ≤ w.now)
  | .rescheduled =>
    let coordinator := w.session.coordinator k
    coordinator.rescheduled || !coordinator.runs number
  | .announced => (w.session.context c).events.hasNews place

/-- **Why a timer loop wakes up now**, if it does: the reason that it finds first. -/
def tickNow? (w : World) (k : CoordinatorId) (number : Nat) (c : ContextId) (place : Nat)
    (due? : Option Nat) : Option Tick :=
  (rounds w.lookFirst).find? (w.hasReason k number c place due?)

/-- Why a timer loop has to wake up before its time, if it has to. -/
def earlyTick? (w : World) (k : CoordinatorId) (number : Nat) (c : ContextId) (place : Nat) :
    Option Tick := w.tickNow? k number c place none

/-- A context is no longer loading. -/
def isSettled (w : World) (c : ContextId) : Bool := (w.session.context c).state != .loading

/-- How long somebody waits for a context to be loaded, in milliseconds. -/
def readinessTimeout : Nat := 60000

/-- **Serves a need.**  `id` is the number of the task and `waiting` says how far its need has
come.  The result is the answer, or what the task waits for now. -/
def serve (w : World) (id : Nat) : (n : Need) → Waiting → World × (n.Answer ⊕ Waiting)
  | .turn, _ => (w, .inl ())
  | .lock name _, .queued =>
    (w, if (w.lock name).isHeldBy id then .inl () else .inr .queued)
  | .lock name access, _ =>
    let w := w.setLock name ((w.lock name).request id access)
    (w, if (w.lock name).isHeldBy id then .inl () else .inr .queued)
  | .store (.save path request), .timed due order .commit =>
    if due ≤ w.now then let (w, reply) := w.commit path request; (w, .inl reply)
    else (w, .inr (.timed due order .commit))
  | .store r, .timed due order pending =>
    if due ≤ w.now then w.callStore r else (w, .inr (.timed due order pending))
  | .store r, _ => w.beginStore r
  | .ask _, .timed due order (.answered answer) =>
    if due ≤ w.now then w.finishAsk answer else (w, .inr (.timed due order (.answered answer)))
  | .ask prompt, _ => w.beginAsk prompt
  | .confirm _, .timed due order (.agree answer) =>
    (w, if due ≤ w.now then .inl answer else .inr (.timed due order (.agree answer)))
  | .confirm widget, _ => w.beginConfirm widget
  | .tick k number c place _, .timed due order pending =>
    match w.tickNow? k number c place (some due) with
    | some t => (w, .inl t)
    | none => (w, .inr (.timed due order pending))
  | .tick k number c place interval, _ =>
    match w.earlyTick? k number c place with
    | some t => (w, .inl t)
    | none => let (w, waiting) := w.setTimer interval.millisUp .over; (w, .inr waiting)
  | .readiness c, .timed due order pending =>
    if w.isSettled c then (w, .inl true)
    else if due ≤ w.now then (w, .inl false)
    else (w, .inr (.timed due order pending))
  | .readiness c, _ =>
    if w.isSettled c then (w, .inl true)
    else let (w, waiting) := w.setTimer readinessTimeout .over; (w, .inr waiting)
  | .pause _, .timed due order pending =>
    (w, if due ≤ w.now then .inl () else .inr (.timed due order pending))
  | .pause 0, _ => (w, .inl ())
  | .pause millis, _ => let (w, waiting) := w.setTimer millis .over; (w, .inr waiting)

/-- A task that waits can go on, other than because a timer is over. -/
def canGoOn (w : World) (id : Nat) (t : Task) : Bool :=
  match t.activity, t.waiting with
  | .process p, .queued =>
    match p.need with
    | .lock name _ => (w.lock name).isHeldBy id
    | _ => false
  | .process p, .timed _ _ _ =>
    match p.need with
    | .tick k number c place _ => (w.earlyTick? k number c place).isSome
    | .readiness c => w.isSettled c
    | _ => false
  | _, _ => false

/-! ## 5. Taking over what a step has done -/

/-- Copies what the host was told about widgets into the log. -/
def logLifecycle (w : World) : World :=
  let news := w.session.lifecycle.drop w.told
  let w := news.foldl (fun w e => w.note (.lifecycle e)) w
  { w with told := w.session.lifecycle.length }

/-- Adds a task that is ready to run. -/
def spawn (w : World) (t : Task) : World :=
  { w with
    tasks := w.tasks ++ [(w.nextTask, t)]
    ready := w.ready ++ [w.nextTask]
    nextTask := w.nextTask + 1 }

/-- Makes tasks of the background work that was started. -/
def spawnStarted (w : World) : World :=
  let started := w.session.started
  let w := { w with session.started := [] }
  started.foldl (fun w b => w.spawn { activity := .process (.ofBackground b) }) w

/-- Wakes the tasks that can go on. -/
def wake (w : World) : World :=
  let woken := (w.tasks.filter fun t => !w.ready.contains t.1 && w.canGoOn t.1 t.2).map (·.1)
  { w with ready := w.ready ++ woken }

/-- **Takes over a session after a step** of a task that keeps some locks. -/
def takeOver (w : World) (session : Session) (id : Nat) (kept : List (LockName × Access)) : World :=
  let w := { w with session }
  ((w.logLifecycle.spawnStarted).releaseExcept id kept).wake

end World

end Folio.Host
