/-
# A session

Everything that a session holds: the registry, the contexts, the coordinators and the widgets that
were ever made, and what the manager keeps of them.  Contexts, coordinators and widgets are never
removed from their lists, so that their numbers stay valid; what is still in use is what the
manager tracks.

A step of the session may start background work: the first load of a new context, a timer loop, an
attempt to save.  It is put into `started` and leaves it when somebody takes it over to run it.
-/
import Folio.Autosave.Attempt
import Folio.Settings
import Folio.Registry.Precedence
import Folio.Document.Widget

namespace Folio

/-! ## 1. What the manager keeps -/

/-- **A context in use**, with its coordinator. -/
structure Tracked where
  context : ContextId
  coordinator : CoordinatorId
  deriving DecidableEq, Repr

/-- **A widget in use**, with the context that it shows. -/
structure Binding where
  widget : WidgetId
  context : ContextId
  deriving DecidableEq, Repr

/-- The settings of autosave for contexts to come. -/
structure AutosavePolicy where
  enabled : Bool
  interval : Duration
  deriving DecidableEq, Repr

/-- **What the manager keeps**: the contexts and the widgets in use, in the order in which they came
into use, and its settings. -/
structure Manager where
  tracked : List Tracked := []
  bindings : List Binding := []
  settings : AutosavePolicy
  disposed : Bool := false
  deriving Repr

/-! ## 2. The session -/

/-- **Background work** that a step has started. -/
inductive Background where
  /-- The first save or load of the context of a coordinator. -/
  | load (coordinator : CoordinatorId) (isNew : Bool)
  /-- A timer loop, by its number, that listens to the context from a place in its events. -/
  | loop (coordinator : CoordinatorId) (number : Nat) (place : Nat)
  /-- An attempt to save. -/
  | attempt (coordinator : CoordinatorId)
  deriving DecidableEq, Repr

/-- **A session.**  `now` is the time in milliseconds; `lifecycle` is all that the host was told
about widgets. -/
structure Session where
  now : Nat := 0
  registry : Registry := .empty
  contexts : List Context := []
  coordinators : List Coordinator := []
  widgets : List Widget := []
  manager : Manager
  lifecycle : List LifecycleEvent := []
  started : List Background := []

namespace Session

/-- A fresh session with a configuration. -/
def create (config : Settings) : Session :=
  { manager := { settings := ⟨config.autosave.enabled, config.autosave.interval⟩ } }

/-! ## 3. Contexts, coordinators and widgets by their numbers -/

/-- The context of a number; a closed one where none was made. -/
def context (s : Session) (c : ContextId) : Context := s.contexts[c]?.getD default

/-- Replaces a context. -/
def setContext (s : Session) (c : ContextId) (context : Context) : Session :=
  { s with contexts := s.contexts.set c context }

theorem context_setContext {s : Session} {c : ContextId} (context : Context)
    (h : c < s.contexts.length) : (s.setContext c context).context c = context := by
  simp [setContext, Session.context, h]

theorem context_setContext_of_ne {s : Session} {c d : ContextId} (context : Context) (h : d ≠ c) :
    (s.setContext c context).context d = s.context d := by
  simp [setContext, Session.context, List.getElem?_set_ne h.symm]

/-- Adds a context and gives its number. -/
def addContext (s : Session) (context : Context) : Session × ContextId :=
  ({ s with contexts := s.contexts ++ [context] }, s.contexts.length)

theorem context_addContext (s : Session) (context : Context) :
    (s.addContext context).1.context s.contexts.length = context := by
  simp [addContext, Session.context]

theorem context_addContext_of_lt {s : Session} {c : ContextId} (context : Context)
    (h : c < s.contexts.length) : (s.addContext context).1.context c = s.context c := by
  simp [addContext, Session.context, List.getElem?_append_left h]

/-- The coordinator of a number; an inactive one where none was made. -/
def coordinator (s : Session) (k : CoordinatorId) : Coordinator := s.coordinators[k]?.getD default

/-- Replaces a coordinator. -/
def setCoordinator (s : Session) (k : CoordinatorId) (coordinator : Coordinator) : Session :=
  { s with coordinators := s.coordinators.set k coordinator }

theorem coordinator_setCoordinator {s : Session} {k : CoordinatorId} (coordinator : Coordinator)
    (h : k < s.coordinators.length) :
    (s.setCoordinator k coordinator).coordinator k = coordinator := by
  simp [setCoordinator, Session.coordinator, h]

theorem coordinator_setCoordinator_of_ne {s : Session} {k j : CoordinatorId}
    (coordinator : Coordinator) (h : j ≠ k) :
    (s.setCoordinator k coordinator).coordinator j = s.coordinator j := by
  simp [setCoordinator, Session.coordinator, List.getElem?_set_ne h.symm]

/-- A coordinator with a loop that may run was made. -/
theorem made_of_runs {s : Session} {k : CoordinatorId} {n : Nat}
    (h : (s.coordinator k).runs n = true) : k < s.coordinators.length := by
  refine Nat.lt_of_not_le fun beyond => ?_
  rw [Session.coordinator, List.getElem?_eq_none beyond] at h
  cases h

/-- Adds a coordinator and gives its number. -/
def addCoordinator (s : Session) (coordinator : Coordinator) : Session × CoordinatorId :=
  ({ s with coordinators := s.coordinators ++ [coordinator] }, s.coordinators.length)

theorem coordinator_addCoordinator (s : Session) (coordinator : Coordinator) :
    (s.addCoordinator coordinator).1.coordinator s.coordinators.length = coordinator := by
  simp [addCoordinator, Session.coordinator]

theorem coordinator_addCoordinator_of_lt {s : Session} {k : CoordinatorId}
    (coordinator : Coordinator) (h : k < s.coordinators.length) :
    (s.addCoordinator coordinator).1.coordinator k = s.coordinator k := by
  simp [addCoordinator, Session.coordinator, List.getElem?_append_left h]

/-- The widget of an identity, where there is one. -/
def widget? (s : Session) : WidgetId → Option Widget
  | .issued n => s.widgets[n]?
  | .foreign => none

/-- Adds a widget and gives its identity. -/
def addWidget (s : Session) (widget : Widget) : Session × WidgetId :=
  ({ s with widgets := s.widgets ++ [widget] }, .issued s.widgets.length)

/-- Disposes a widget. -/
def disposeWidget (s : Session) : WidgetId → Session
  | .issued n => { s with widgets := s.widgets.modify n fun w => { w with disposed := true } }
  | .foreign => s

/-- Tells the host about a widget. -/
def tell (s : Session) (e : LifecycleEvent) : Session := { s with lifecycle := s.lifecycle ++ [e] }

/-- Starts background work. -/
def start (s : Session) (work : Background) : Session := { s with started := s.started ++ [work] }

/-! ## 4. Coordinators and attempts -/

/-- **Starts a coordinator**, and with it a timer loop that hears all events from now on. -/
def startCoordinator (s : Session) (k : CoordinatorId) : Session :=
  let old := s.coordinator k
  let context := s.context old.context
  match old.start context.isDisposed with
  | (_, none) => s
  | (new, some number) => (s.setCoordinator k new).start (.loop k number context.events.count)

/-- Stops a coordinator. -/
def stopCoordinator (s : Session) (k : CoordinatorId) : Session :=
  s.setCoordinator k (s.coordinator k).stop

/-- Sets the interval of a coordinator. -/
def setCoordinatorInterval (s : Session) (k : CoordinatorId) (interval : Duration) : Session :=
  s.setCoordinator k ((s.coordinator k).setInterval interval)

/-- What an attempt of a coordinator acts on. -/
def scene (s : Session) (k : CoordinatorId) : Attempt.Scene :=
  let coordinator := s.coordinator k
  ⟨s.now, coordinator, s.context coordinator.context⟩

/-- Puts back what an attempt has acted on. -/
def setScene (s : Session) (k : CoordinatorId) (scene : Attempt.Scene) : Session :=
  (s.setContext (s.coordinator k).context scene.context).setCoordinator k scene.coordinator

/-! ## 5. Contexts in use -/

/-- **A context in use stands for a path and a model factory**, whether it is loaded or not. -/
def standsFor (s : Session) (t : Tracked) (path modelFactory : String) : Bool :=
  let c := s.context t.context
  !c.isDisposed && c.path == path && Text.sameAscii c.modelFactory modelFactory

/-- The context stands for the pair, and its first load has not failed. -/
def isOpenFor (s : Session) (t : Tracked) (path modelFactory : String) : Bool :=
  s.standsFor t path modelFactory && !(s.context t.context).hasFailed

/-- The context is live and its path is the one given. -/
def isAt (s : Session) (t : Tracked) (path : String) : Bool :=
  let c := s.context t.context
  !c.isDisposed && c.path == path

/-- **Makes a context** for a path, with its coordinator, and starts its first save or load. -/
def newTracked (s : Session) (path : String) (factory : ModelFactory) (isNew : Bool) :
    Session × Tracked :=
  let (s, c) := s.addContext
    { path, modelFactory := factory.name, contentType := factory.contentType,
      model := factory.build }
  let (s, k) := s.addCoordinator (.create c s.manager.settings.interval)
  (s.start (.load k isNew), ⟨c, k⟩)

@[simp] theorem newTracked_snd (s : Session) (path : String) (factory : ModelFactory)
    (isNew : Bool) :
    (s.newTracked path factory isNew).2 = ⟨s.contexts.length, s.coordinators.length⟩ := rfl

@[simp] theorem manager_newTracked (s : Session) (path : String) (factory : ModelFactory)
    (isNew : Bool) : (s.newTracked path factory isNew).1.manager = s.manager := rfl

theorem context_newTracked (s : Session) (path : String) (factory : ModelFactory) (isNew : Bool) :
    (s.newTracked path factory isNew).1.context s.contexts.length =
      { path, modelFactory := factory.name, contentType := factory.contentType,
        model := factory.build } :=
  context_addContext s _

theorem context_newTracked_of_lt {s : Session} {c : ContextId} (path : String)
    (factory : ModelFactory) (isNew : Bool) (h : c < s.contexts.length) :
    (s.newTracked path factory isNew).1.context c = s.context c :=
  context_addContext_of_lt _ h

theorem coordinator_newTracked (s : Session) (path : String) (factory : ModelFactory)
    (isNew : Bool) :
    (s.newTracked path factory isNew).1.coordinator s.coordinators.length =
      .create s.contexts.length s.manager.settings.interval :=
  coordinator_addCoordinator (s.addContext _).1 _

/-- **Makes a widget** for a context and tells the host. -/
def newWidget (s : Session) (factory : WidgetFactory) (c : ContextId) (hint : Option OpenHint) :
    Session × WidgetId :=
  let (s, w) := s.addWidget
    { factoryName := factory.widgetName, context := c, hint, custom := factory.viewName.isSome }
  (s.tell (.adopted w c hint), w)

/-- Disposes a widget and tells the host. -/
def retireWidget (s : Session) (w : WidgetId) : Session :=
  (s.disposeWidget w).tell (.disposed w)

/-- Replaces the contexts in use. -/
def setTracked (s : Session) (tracked : List Tracked) : Session :=
  { s with manager.tracked := tracked }

/-- Replaces the widgets in use. -/
def setBindings (s : Session) (bindings : List Binding) : Session :=
  { s with manager.bindings := bindings }

/-- **Closes a context** that is no longer in use: its widgets are disposed and no longer in use,
its coordinator is stopped, and the context is disposed. -/
def retireContext (s : Session) (t : Tracked) : Session :=
  let (closing, keep) := s.manager.bindings.partition (·.context == t.context)
  let s := closing.foldl (fun s b => s.retireWidget b.widget) (s.setBindings keep)
  let s := s.stopCoordinator t.coordinator
  s.setContext t.context (s.context t.context).dispose

end Session

end Folio
