/-
# Autosave coordinators

A coordinator saves one context from time to time.  It has a configured interval, which is also
the least one, and a current interval that adapts to how long saves take: ten times the last one,
never below the least.  While it is active, one timer loop of it runs.

Here are the state of a coordinator and the changes to it, each of which happens at one instant.
The loop and the attempts to save are processes of their own.
-/
import Folio.Document.Context
import Folio.Duration

namespace Folio

/-- **Coordinators are numbered** in the order in which they are made. -/
abbrev CoordinatorId : Type := Nat

namespace Autosave

/-- How many times longer than a save the time to the next one is. -/
def saveMultiple : Nat := 10

/-- The shortest interval that can be configured. -/
def shortestInterval : Duration := .ofSeconds 1

/-- **The interval after a save** that took a while: ten times as long, never below the least. -/
def adaptedInterval (saveTook least : Duration) : Duration :=
  (saveTook.scale saveMultiple).longer least

/-- An interval raised to the shortest one that can be configured. -/
def raisedInterval (interval : Duration) : Duration := shortestInterval.longer interval

end Autosave

/-- **A coordinator.** -/
structure Coordinator where
  context : ContextId
  /-- The interval that was asked for. -/
  configured : Duration
  /-- The least that the current interval can become. -/
  least : Duration
  /-- The interval of the next timer. -/
  current : Duration
  active : Bool := false
  /-- A conflict dialog is open, or what it decided is being done. -/
  arbitrating : Bool := false
  /-- The loop is to set its timer anew and has not done so yet. -/
  rescheduled : Bool := false
  /-- The number of loops ever started. -/
  loopCount : Nat := 0
  /-- The loop that may run, by its number; all others have been stopped. -/
  loop : Option Nat := none
  deriving Repr

namespace Coordinator

/-- **A coordinator that is not active.** -/
def create (context : ContextId) (interval : Duration) : Coordinator :=
  let interval := Autosave.raisedInterval interval
  { context, configured := interval, least := interval, current := interval }

instance : Inhabited Coordinator := ⟨.create 0 Autosave.shortestInterval⟩

/-- The loop of a number may run. -/
def runs (k : Coordinator) (loop : Nat) : Bool := k.loop == some loop

/-- **Becomes active** with a new loop, whose number is given; nothing happens if the coordinator is
active or its context is closed. -/
def start (k : Coordinator) (contextDisposed : Bool) : Coordinator × Option Nat :=
  if contextDisposed || k.active then (k, none)
  else
    ({ k with active := true, loop := some k.loopCount, loopCount := k.loopCount + 1 },
      some k.loopCount)

/-- **Becomes inactive**; the loop is stopped. -/
def stop (k : Coordinator) : Coordinator := { k with active := false, loop := none }

/-- Becomes inactive because the context was closed; the loop ends by itself. -/
def endLoop (k : Coordinator) : Coordinator := { k with active := false }

/-- Asks the loop to set its timer anew. -/
def reschedule (k : Coordinator) : Coordinator := { k with rescheduled := true }

/-- The loop sets its timer anew. -/
def takeReschedule (k : Coordinator) : Coordinator := { k with rescheduled := false }

/-- **Sets the interval**; a pending timer starts anew. -/
def setInterval (k : Coordinator) (interval : Duration) : Coordinator :=
  let interval := Autosave.raisedInterval interval
  let k := { k with configured := interval, least := interval, current := interval }
  if k.active then k.reschedule else k

/-- **A save took a while.**  The interval adapts, unless the coordinator was stopped since. -/
def recalibrate (k : Coordinator) (saveTook : Duration) : Coordinator :=
  if k.active then
    { k with current := Autosave.adaptedInterval saveTook k.least }.reschedule
  else k

/-- Opens the conflict dialog. -/
def openConflict (k : Coordinator) : Coordinator := { k with arbitrating := true }

/-- The conflict is dealt with. -/
def closeConflict (k : Coordinator) : Coordinator := { k with arbitrating := false }

end Coordinator

end Folio
