/-
# Running the world

Tasks run one at a time, and each until it has to wait.  Those that can go on stand in a queue and
run in its order; what they start or wake joins the queue at its end.  Only when the queue is empty
does time move on, and then straight to the next timer.

The foreground carries out one command after the other.  It runs before all tasks whenever it can
go on, and when a command is over all tasks run until they wait.  A command in the background is a
task like any other.
-/
import Folio.Host.Begin

namespace Folio.Host

namespace World

/-! ## 1. One task -/

/-- **How a poll of a task ends**: it waits, or it is over with a reply. -/
abbrev Polled : Type := World × (Task ⊕ Reply)

/-- One step of a save straight to the store in memory. -/
def pollSave (w : World) (t : Task) (path : String) (request : SaveRequest) : Polled :=
  let finish := fun (outcome : World × Except StoreError Metadata) =>
    (outcome.1, Sum.inr (Reply.ofExcept .store .metadata outcome.2))
  match t.waiting with
  | .timed due _ _ => if due ≤ w.now then finish (w.commit path request) else (w, .inl t)
  | _ =>
    match w.beginCommit path request with
    | (w, .inl reply) => finish (w, reply)
    | (w, .inr waiting) => (w, .inl { t with waiting })

/-- **Runs a task** until it has to wait or is over, for at most `fuel` steps. -/
def poll : Nat → World → Nat → Task → Polled
  | 0, w, _, _ => (w, .inr (.failed .stuck))
  | fuel + 1, w, id, t =>
    match t.activity with
    | .saving path request => w.pollSave t path request
    | .command command =>
      match w.begin command with
      | (w, .inl reply) => (w.takeOver w.session id [], .inr reply)
      | (w, .inr activity) => poll fuel w id { t with activity, waiting := .fresh }
    | .process p =>
      match w.serve id p.need t.waiting with
      | (w, .inr waiting) => (w, .inl { t with waiting })
      | (w, .inl answer) =>
        match p.resume w.session answer with
        | (session, .inl p) =>
          poll fuel (w.takeOver session id p.holds) id
            { t with activity := .process p, waiting := .fresh }
        | (session, .inr outcome) =>
          let (w, reply) := (w.takeOver session id []).conclude outcome
          (w, .inr reply)

/-! ## 2. All tasks -/

/-- A task is over: what the host wants to know is logged. -/
def endTask (w : World) (t : Task) (reply : Reply) : World :=
  match t.job with
  | some label => w.note (.job label reply)
  | none => w

/-- Runs one task of the table by its number; if it waits it goes to the end of the table. -/
def runTask (fuel : Nat) (w : World) (id : Nat) : World :=
  match w.tasks.lookup id with
  | none => w
  | some t =>
    match poll fuel { w with tasks := w.tasks.filter (·.1 != id) } id t with
    | (w, .inl t) => { w with tasks := w.tasks ++ [(id, t)] }
    | (w, .inr reply) => w.endTask t reply

/-- **Runs tasks until all wait**, at most `fuel` of them. -/
def settle : Nat → World → World
  | 0, w => w
  | fuel + 1, w =>
    match w.ready with
    | [] => w
    | id :: rest => settle fuel (runTask (fuel + 1) { w with ready := rest } id)

/-! ## 3. Time -/

/-- The next instant at which a timer is over, of the foreground or of a task. -/
def nextInstant? (w : World) (foreground : Task) : Option Nat :=
  ((foreground :: w.tasks.map (·.2)).filterMap fun t => t.timer?.map (·.1)).min?

/-- The tasks whose timers are over at an instant, in the order in which the timers were set. -/
def dueAt (w : World) (instant : Nat) : List Nat :=
  let due := w.tasks.filterMap fun t =>
    match t.2.timer? with
    | some (time, order) => if time = instant then some (order, t.1) else none
    | none => none
  (due.mergeSort fun a b => a.1 ≤ b.1).map (·.2)

/-- Time moves on to an instant. -/
def moveTo (w : World) (instant : Nat) : World :=
  { w with session.now := instant, ready := w.ready ++ w.dueAt instant }

/-! ## 4. The foreground -/

/-- **Runs the foreground until it is over**, with all that has to happen meanwhile. -/
def drive : Nat → World → Task → World × Reply
  | 0, w, _ => (w, .failed .stuck)
  | fuel + 1, w, foreground =>
    match poll (fuel + 1) w 0 foreground with
    | (w, .inr reply) => (w, reply)
    | (w, .inl foreground) =>
      if w.ready.isEmpty then
        match w.nextInstant? foreground with
        | some instant => drive fuel (w.moveTo instant) foreground
        | none => (w, .failed .stuck)
      else drive fuel (settle (fuel + 1) w) foreground

/-- The most steps that one command may take. -/
def stepLimit : Nat := 1000000000

/-- **Carries out a command in the foreground.** -/
def perform (w : World) (command : Command) : World × Reply :=
  drive stepLimit w { activity := .command command }

/-- **Starts a command in the background** and gives its label. -/
def performLater (w : World) (command : Command) : World × Reply :=
  let label := w.jobCount
  (({ w with jobCount := label + 1 }).spawn { activity := .command command, job := some label },
    .job label)

/-- Runs all tasks until they wait. -/
def quiesce (w : World) : World := settle stepLimit w

end World

/-! ## 5. What the host hears -/

/-- **The world and what the host has heard of it**: for each context and for the registry, how many
of the announcements it has received or missed. -/
structure Hearing where
  world : World
  eventPlaces : List Nat := []
  changePlace : Nat := 0

/-- **The answer to a command**: its reply, the time, and all that was seen and heard since the
last answer. -/
structure Answer where
  reply : Reply
  time : Nat
  log : List (Nat × LogEntry)
  events : List (ContextId × List (Received Announcement))
  changes : List (Received RegistryChange)

namespace Hearing

/-- The place of a context's events up to which the host has heard. -/
def placeOf (h : Hearing) (c : ContextId) : Nat := (h.eventPlaces[c]?).getD 0

/-- The events of all contexts that the host has not heard, by their contexts. -/
def newEvents (h : Hearing) : List (ContextId × List (Received Announcement)) :=
  (h.world.session.contexts.zipIdx.map fun (context, c) =>
    (c, context.events.receiveAll (h.placeOf c))).filter fun e => !e.2.isEmpty

/-- The changes of the registry that the host has not heard. -/
def newChanges (h : Hearing) : List (Received RegistryChange) :=
  h.world.session.registry.changes.receiveAll h.changePlace

/-- The host has heard everything. -/
def heardAll (h : Hearing) : Hearing :=
  { h with
    eventPlaces := h.world.session.contexts.map (·.events.count)
    changePlace := h.world.session.registry.changes.count }

/-- **How a command is given**: in the background, with or without waiting for the tasks to settle
afterwards, with or without listening to the announcements. -/
structure Manner where
  background : Bool := false
  settle : Bool := true
  listen : Bool := true

/-- **Gives a command** and collects the answer. -/
def give (h : Hearing) (command : Command) (manner : Manner) : Hearing × Answer :=
  let (world, reply) :=
    if manner.background then h.world.performLater command else h.world.perform command
  let world := if manner.settle then world.quiesce else world
  let h := { h with world := { world with log := [] } }
  let answer := fun events changes => Answer.mk reply world.now world.log events changes
  if manner.listen then (h.heardAll, answer h.newEvents h.newChanges)
  else (h, answer [] [])

end Hearing

end Folio.Host
