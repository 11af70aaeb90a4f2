/-
# What a host does

The host is the program that a session lives in.  A `Command` is one thing that it does: it changes
the registry or the store, works with a context, a coordinator or the manager, or lets time pass.
A `Reply` is what it learns from that.

Contexts, widgets, coordinators and registrations are named by labels, which are numbers in the
order in which they came up.  A label may name nothing.
-/
import Folio.Session.Process
import Folio.Store.InMemory

namespace Folio.Host

/-- **A label.**  `none` is a text that is no label at all. -/
abbrev Label : Type := Option Nat

/-! ## 1. Commands -/

/-- **Why a command cannot be carried out at all.** -/
inductive Refusal where
  /-- The host's wish is no command. -/
  | unknownCommand
  /-- The content that comes with the command is none. -/
  | unusableContent
  /-- The length of time that comes with the command is longer than the longest duration. -/
  | unusableDuration
  | unknownContext
  | unknownCoordinator
  /-- The handle of a registration is unknown or used up. -/
  | badHandle
  /-- There is nothing that the command could work on any more. -/
  | notPossible
  deriving DecidableEq, Repr

/-- **What the host does with a registry.** -/
inductive RegistryCommand where
  | addModel (factory : ModelFactory)
  | addWidget (factory : WidgetFactory)
  | addFileType (fileType : FileType)
  | unregister (handle : Label)
  /-- The host gives its reference to the registry up. -/
  | drop
  | model (name : String)
  | widget (name : String)
  | fileType (name : String)
  | models
  | widgets
  | preferred (extension : String)
  | preferredForPath (path : String)
  | default (extension : String)
  | widgetFor (path name : String)
  | serves (name extension : String)
  | setDefault (extension : String) (factory : Option String)
  | fileTypes (path : String)

/-- **What the host does with the store in memory**, past the wrapper. -/
inductive StoreCommand where
  | clock (millis : Int)
  | write (path : String) (content : Content)
  | setWritable (path : String) (writable : Bool)
  | content (path : String)
  | contains (path : String)
  | setAvailable (available : Bool)
  | setMetadataAvailable (available : Bool)
  | setSaveDelay (millis : Option Nat)
  | setDelay (call : String) (millis : Nat)
  | fail (call : String) (error : StoreError)
  | setStripContent (strip : Bool)
  | calls
  /-- A call that takes no time. -/
  | perform (request : StoreRequest)
  /-- A save, which takes the time that the store takes over saves. -/
  | save (path : String) (request : SaveRequest)

/-- **What the host does with a context.** -/
inductive ContextCommand where
  | perform (op : ContextOp)
  | awaitReady
  | followMove (target : String)
  | dispose
  | setDirty (dirty : Bool)
  | setReadOnly (readOnly : Bool)
  /-- Loads a content into the model; an edit makes it dirty too. -/
  | load (content : Content) (edit : Bool)
  | state

/-- **What the host does with a coordinator.** -/
inductive CoordinatorCommand where
  | start
  | stop
  | setInterval (interval : Duration)
  | state

/-- **One thing that the host does.** -/
inductive Command where
  | registry (command : RegistryCommand)
  | store (command : StoreCommand)
  | newContext (path modelFactory contentType : String) (kind : ModelKind)
  | context (label : Label) (command : ContextCommand)
  | newCoordinator (context : Label) (interval : Duration)
  | coordinator (label : Label) (command : CoordinatorCommand)
  | dropCoordinator (label : Label)
  | manager (op : ManagerOp)
  | contextFor (widget : Label)
  | close (widget : Label)
  | autosaveFor (context : Label)
  | isDisposed
  | registrySize
  | widgetState (widget : Label)
  | widgetDispose (widget : Label)
  | viewHints
  | advance (millis : Nat)
  /-- A wish that could not be made out. -/
  | invalid (cause : Refusal)

/-! ## 2. Replies -/

/-- **Why a command fails.** -/
inductive Failure where
  | store (cause : StoreError)
  | context (cause : ContextError)
  | manager (cause : ManagerError)
  | registry (cause : RegistryError)
  | model (cause : ModelError)
  | timeout
  | refused (cause : Refusal)
  /-- Nothing can go on any more, or not within the limit of steps. -/
  | stuck
  deriving DecidableEq, Repr

/-- What the host sees of a widget. -/
structure WidgetView where
  widget : WidgetId
  context : ContextId
  factoryName : String
  disposed : Bool
  deriving DecidableEq, Repr

/-- **What the host learns.** -/
inductive Reply where
  | nothing
  | ok
  | bool (b : Bool)
  | number (n : Nat)
  | name (name : Option String)
  | names (names : List String)
  | maybe (b : Option Bool)
  | metadata (m : Metadata)
  | file (f : RemoteFile)
  | content (c : Option Content)
  | checkpoint (c : Checkpoint)
  | checkpoints (cs : List Checkpoint)
  | calls (c : CallCounts)
  | context (c : Option ContextId)
  | contexts (cs : List ContextId)
  | widget (w : Option WidgetView)
  | widgets (ws : List WidgetId)
  | coordinator (label : Option Nat)
  | contextState (c : Context)
  | coordinatorState (k : Coordinator)
  | modelFactory (f : Option ModelFactory)
  | widgetFactory (f : Option WidgetFactory)
  | fileType (t : Option FileType)
  | registration (handle : Nat) (outcome : Registration)
  | hints (hs : List (Option OpenHint))
  /-- The command runs in the background under a label. -/
  | job (label : Nat)
  | failed (cause : Failure)

/-- A reply that may be a failure. -/
def Reply.ofExcept {ε α : Type} (failure : ε → Failure) (reply : α → Reply) : Except ε α → Reply
  | .ok a => reply a
  | .error e => .failed (failure e)

/-! ## 3. The log -/

/-- **What the host's capabilities saw.** -/
inductive LogEntry where
  | lifecycle (event : LifecycleEvent)
  /-- The host was asked whether a widget may be closed. -/
  | confirm (widget : WidgetId)
  /-- The user was asked about a conflict. -/
  | ask (prompt : ConflictPrompt)
  /-- The user has answered. -/
  | answered (resolution : Resolution)
  /-- The store was called. -/
  | store (request : StoreRequest)
  /-- A command in the background has ended. -/
  | job (label : Nat) (reply : Reply)

end Folio.Host
