/-
# Calls of the manager in progress

`ManagerOp` is what the manager can be asked.  A call runs through stages; each stage is a place
where it is suspended, with what it has to remember.  `Stage.need` says what it waits for there
and `Stage.holds` which locks it holds meanwhile.

The lock on the contexts is always taken before the lock on the bindings.  Only a call that moves a
file keeps a lock while it waits for the store, and none does while it waits for the host.
-/
import Folio.Session.Need
import Folio.Session.Basic

namespace Folio

/-- **What the manager can be asked.** -/
inductive ManagerOp where
  /-- Opens a document that exists. -/
  | open (path factory : String) (hint : Option OpenHint)
  /-- Creates a document, whatever is open at its path. -/
  | create (path factory : String) (hint : Option OpenHint)
  /-- The widget of a factory that shows a document already. -/
  | find (path factory : String)
  /-- That widget, or else a new one. -/
  | reveal (path factory : String) (hint : Option OpenHint)
  | contextFor (widget : WidgetId)
  | widgetsFor (path : String)
  | openContexts
  | autosaveFor (context : ContextId)
  | closeWidget (widget : WidgetId)
  | closeFile (path : String)
  | closeAll
  | renameFile (source target : String)
  | deleteFile (path : String)
  | setAutosave (enabled : Bool)
  | setInterval (interval : Duration)
  | dispose
  deriving DecidableEq, Repr

/-- **Why the manager fails.** -/
inductive ManagerError where
  | store (cause : StoreError)
  | widgetNotFound (widget : WidgetId)
  /-- A document at the target of a move has changes. -/
  | unsavedTarget (path : String)
  /-- The manager was asked something after it had been disposed. -/
  | usedAfterDisposal
  deriving DecidableEq, Repr

/-- The text of the error. -/
def ManagerError.message : ManagerError → String
  | .store cause => "Store error: " ++ cause.message
  | .widgetNotFound widget => "Widget not found: " ++ widget.text
  | .unsavedTarget path => "Rename target has unsaved changes: " ++ path
  | .usedAfterDisposal => "SessionManager used after it was disposed"

/-- **What the manager answers.** -/
inductive ManagerReply where
  /-- The call, which cannot fail, is over. -/
  | done
  | renamed
  | deleted
  | closed (yes : Bool)
  | widget (w : Option WidgetId)
  | widgets (ws : List WidgetId)
  | context (c : Option ContextId)
  | contexts (cs : List ContextId)
  | coordinator (k : Option CoordinatorId)
  deriving DecidableEq, Repr

/-- The outcome of a call. -/
abbrev ManagerResult : Type := Except ManagerError ManagerReply

/-! ## 1. Stages -/

/-- **What follows when all contexts that a call closes are closed.** -/
inductive AfterClosing where
  /-- A document is opened. -/
  | open (path : String) (widget : WidgetFactory) (model : ModelFactory) (hint : Option OpenHint)
  /-- A document is created. -/
  | create (path : String) (widget : WidgetFactory) (model : ModelFactory) (hint : Option OpenHint)
  /-- The contexts at a path follow its file. -/
  | follow (source target : String)
  /-- The file is deleted from the store. -/
  | delete (path : String)
  /-- All bindings are dropped; `last` says that the manager is disposed then. -/
  | clear (last : Bool)
  /-- The call ends. -/
  | finish (reply : ManagerReply)
  deriving DecidableEq, Repr

/-- What is looked up among the bindings. -/
inductive BindingQuery where
  | contextFor (widget : WidgetId)
  | widgetsFor (path : String)
  deriving DecidableEq, Repr

/-- What is done with the contexts in use while they stay as they are. -/
inductive ContextQuery where
  | openContexts
  | autosaveFor (context : ContextId)
  | setAutosave (enabled : Bool)
  | setInterval (interval : Duration)
  deriving DecidableEq, Repr

/-- What is done with the contexts in use while nobody else looks at them. -/
inductive ContextUpdate where
  | open (path : String) (widget : WidgetFactory) (model : ModelFactory) (hint : Option OpenHint)
  | create (path : String) (widget : WidgetFactory) (model : ModelFactory) (hint : Option OpenHint)
  /-- The first look at a widget that is to be closed; `confirmed` says that the host agreed. -/
  | closeWidget (widget : WidgetId) (confirmed : Bool)
  | closeFile (path : String) (delete : Bool)
  | closeAll (last : Bool)
  | renameFile (source target : String)
  deriving DecidableEq, Repr

/-- A widget that is wanted, to be opened if it is not found. -/
structure Wanted where
  path : String
  factory : String
  hint : Option OpenHint
  deriving DecidableEq, Repr

/-- **A call of the manager, by what it waits for.** -/
inductive Stage where
  /-- It has not begun. -/
  | called (op : ManagerOp)
  /-- It waits for the contexts, to change them. -/
  | updating (update : ContextUpdate)
  /-- It waits for the contexts, to look at them. -/
  | reading (query : ContextQuery)
  /-- It waits for the contexts, to find the one of a document. -/
  | finding (path : String) (widget : WidgetFactory) (model : ModelFactory)
      (otherwise : Option Wanted)
  /-- It has found the context and waits for the bindings, to find a widget that shows it. -/
  | searching (context : ContextId) (widget : WidgetFactory) (otherwise : Option Wanted)
  /-- It waits for the bindings, to look at them. -/
  | readingBindings (query : BindingQuery)
  /-- It waits for the bindings, to close a context that is no longer in use. -/
  | closing (first : Tracked) (rest : List Tracked) (after : AfterClosing)
  /-- It waits for the bindings, to add a widget. -/
  | binding (widget : WidgetId) (context : ContextId)
  /-- It waits for the bindings, to take out a widget. -/
  | unbinding (widget : WidgetId) (confirmed : Bool)
  /-- It waits for the host's word. -/
  | confirming (widget : WidgetId)
  /-- It waits for the bindings, to drop them all. -/
  | clearing (last : Bool)
  /-- It waits for the store to move a file; `models` are the model factories of the contexts at
  its path. -/
  | moving (source target : String) (models : List String)
  /-- It waits for the store to delete a file. -/
  | deleting (path : String)
  deriving DecidableEq, Repr

/-- **What a stage waits for.** -/
@[reducible] def Stage.need : Stage → Need
  | .called _ => .turn
  | .updating _ => .lock .contexts .exclusive
  | .reading _ => .lock .contexts .shared
  | .finding _ _ _ _ => .lock .contexts .shared
  | .searching _ _ _ => .lock .bindings .shared
  | .readingBindings _ => .lock .bindings .shared
  | .closing _ _ _ => .lock .bindings .exclusive
  | .binding _ _ => .lock .bindings .exclusive
  | .unbinding _ _ => .lock .bindings .exclusive
  | .confirming w => .confirm w
  | .clearing _ => .lock .bindings .exclusive
  | .moving source target _ => .store (.rename source target)
  | .deleting path => .store (.delete path)

/-- **The locks that a stage holds** while it waits. -/
def Stage.holds : Stage → List (LockName × Access)
  | .called _ => []
  | .updating _ => []
  | .reading _ => []
  | .finding _ _ _ _ => []
  | .searching _ _ _ => [(.contexts, .shared)]
  | .readingBindings _ => []
  | .closing _ _ _ => [(.contexts, .exclusive)]
  | .binding _ _ => [(.contexts, .exclusive)]
  | .unbinding _ _ => [(.contexts, .exclusive)]
  | .confirming _ => []
  | .clearing _ => [(.contexts, .exclusive)]
  | .moving _ _ _ => [(.contexts, .exclusive)]
  | .deleting _ => []

/-! ## 2. The order of the locks -/

/-- A call that waits for the contexts holds no lock. -/
theorem Stage.holds_of_need_contexts {stage : Stage} {access : Access}
    (h : stage.need = .lock .contexts access) : stage.holds = [] := by
  cases stage <;> simp_all [Stage.need, Stage.holds]

/-- No call holds the bindings while it waits for anything. -/
theorem Stage.bindings_not_mem_holds (stage : Stage) (access : Access) :
    (LockName.bindings, access) ∉ stage.holds := by
  cases stage <;> simp [Stage.holds]

end Folio
