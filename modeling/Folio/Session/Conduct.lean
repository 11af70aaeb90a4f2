/-
# The manager at work

What a call of the manager does between two places where it is suspended.  `Stage.resume` takes a
stage, what it waited for, and the session as it is now; it gives the session afterwards and either
the next stage or the result of the call.

The rules that it follows:

* a document is opened in the live context for its path and model factory, if there is one; one
  whose first load failed is closed and replaced;
* a document is created in a context of its own, and what was open in its place is closed;
* the last widget of a document with changes is closed only if the host agrees, and what was found
  before the host was asked is looked at again;
* contexts follow a file that is moved; what was open at the target with the same model factory is
  closed, but not if it has changes: then nothing is moved.
-/
import Folio.Session.Stage

namespace Folio

namespace Manager

/-- **What follows**: the session and the next stage, or the result. -/
abbrev Step : Type := Session × (Stage ⊕ ManagerResult)

/-- The call is suspended at a stage. -/
def await (s : Session) (stage : Stage) : Step := (s, .inl stage)

/-- The call ends with a reply. -/
def reply (s : Session) (r : ManagerReply) : Step := (s, .inr (.ok r))

/-- The call fails. -/
def fail (s : Session) (e : ManagerError) : Step := (s, .inr (.error e))

/-! ## 1. Beginning a call -/

/-- The widget factory that a name means for a path, and the model factory that it needs. -/
def factoriesFor (s : Session) (path name : String) : Option (WidgetFactory × ModelFactory) := do
  let widget ← s.registry.widgetFor? path name
  let model ← s.registry.model? widget.modelName
  pure (widget, model)

/-- **Begins a call** on a manager that is not disposed. -/
def begin (s : Session) : ManagerOp → Step
  | .open path name hint =>
    match factoriesFor s path name with
    | some (widget, model) => await s (.updating (.open path widget model hint))
    | none => reply s (.widget none)
  | .create path name hint =>
    match factoriesFor s path name with
    | some (widget, model) => await s (.updating (.create path widget model hint))
    | none => reply s (.widget none)
  | .find path name =>
    match factoriesFor s path name with
    | some (widget, model) => await s (.finding path widget model none)
    | none => reply s (.widget none)
  | .reveal path name hint =>
    match factoriesFor s path name with
    | some (widget, model) => await s (.finding path widget model (some ⟨path, name, hint⟩))
    | none => await s (.called (.open path name hint))
  | .contextFor widget => await s (.readingBindings (.contextFor widget))
  | .widgetsFor path => await s (.readingBindings (.widgetsFor path))
  | .openContexts => await s (.reading .openContexts)
  | .autosaveFor c => await s (.reading (.autosaveFor c))
  | .closeWidget widget => await s (.updating (.closeWidget widget false))
  | .closeFile path => await s (.updating (.closeFile path false))
  | .closeAll => await s (.updating (.closeAll false))
  | .renameFile source target => await s (.updating (.renameFile source target))
  | .deleteFile path => await s (.updating (.closeFile path true))
  | .setAutosave enabled =>
    await { s with manager.settings.enabled := enabled } (.reading (.setAutosave enabled))
  | .setInterval interval =>
    await { s with manager.settings.interval := interval } (.reading (.setInterval interval))
  | .dispose => await s (.updating (.closeAll true))

/-- A call on a disposed manager: to dispose it again does nothing, all else fails. -/
def beginDisposed (s : Session) : ManagerOp → Step
  | .dispose => reply s .done
  | _ => fail s .usedAfterDisposal

/-! ## 2. Opening and closing -/

/-- Makes a widget for a context and waits to bind it. -/
def bindNew (s : Session) (widget : WidgetFactory) (c : ContextId) (hint : Option OpenHint) :
    Step :=
  let (s, w) := s.newWidget widget c hint
  await s (.binding w c)

/-- Opens a document in the first context for it, or in a new one that is loaded. -/
def openNow (s : Session) (path : String) (widget : WidgetFactory) (model : ModelFactory)
    (hint : Option OpenHint) : Step :=
  match s.manager.tracked.find? fun t => s.isOpenFor t path model.name with
  | some t => bindNew s widget t.context hint
  | none =>
    let (s, t) := s.newTracked path model false
    bindNew (s.setTracked (s.manager.tracked ++ [t])) widget t.context hint

/-- Creates a document in a new context that is saved. -/
def createNow (s : Session) (path : String) (widget : WidgetFactory) (model : ModelFactory)
    (hint : Option OpenHint) : Step :=
  let (s, t) := s.newTracked path model true
  bindNew (s.setTracked (s.manager.tracked ++ [t])) widget t.context hint

/-- Lets the live contexts at a path follow its file. -/
def followAll (s : Session) (source target : String) : Session :=
  s.manager.tracked.foldl
    (fun s t =>
      if s.isAt t source then s.setContext t.context ((s.context t.context).followMove target)
      else s)
    s

/-- **What follows when all is closed.** -/
def afterClosing (s : Session) : AfterClosing → Step
  | .open path widget model hint => openNow s path widget model hint
  | .create path widget model hint => createNow s path widget model hint
  | .follow source target => reply (followAll s source target) .renamed
  | .delete path => await s (.deleting path)
  | .clear last => await s (.clearing last)
  | .finish r => reply s r

/-- Closes contexts, one after the other. -/
def retireEach (s : Session) (closing : List Tracked) (after : AfterClosing) : Step :=
  match closing with
  | [] => afterClosing s after
  | t :: rest => await s (.closing t rest after)

/-- Takes the contexts that pass a test out of use and closes them. -/
def retireWhere (s : Session) (test : Tracked → Bool) (after : AfterClosing) : Step :=
  let (closing, keep) := s.manager.tracked.partition test
  retireEach (s.setTracked keep) closing after

/-! ## 3. Moving a file -/

/-- The model factories of the live contexts at a path. -/
def modelsAt (s : Session) (path : String) : List String :=
  (s.manager.tracked.filter fun t => s.isAt t path).map fun t => (s.context t.context).modelFactory

/-- A context stands for the target of a move and for one of the model factories that come there. -/
def isDisplaced (s : Session) (target : String) (models : List String) (t : Tracked) : Bool :=
  models.any fun model => s.standsFor t target model

/-- Such a context has changes that would be lost. -/
def isDisplacedUnsaved (s : Session) (target : String) (models : List String) (t : Tracked) :
    Bool :=
  let c := s.context t.context
  isDisplaced s target models t && !c.hasFailed && c.model.dirty

/-- Begins to move a file, unless changes at the target would be lost. -/
def beginMove (s : Session) (source target : String) : Step :=
  let models := modelsAt s source
  if s.manager.tracked.any (isDisplacedUnsaved s target models) then fail s (.unsavedTarget target)
  else await s (.moving source target models)

/-! ## 4. With a lock in hand -/

/-- **The contexts may be changed.** -/
def update (s : Session) : ContextUpdate → Step
  | .open path widget model hint =>
    retireWhere s (fun t => s.standsFor t path model.name && (s.context t.context).hasFailed)
      (.open path widget model hint)
  | .create path widget model hint =>
    retireWhere s (fun t => s.standsFor t path model.name) (.create path widget model hint)
  | .closeWidget widget confirmed => await s (.unbinding widget confirmed)
  | .closeFile path delete =>
    retireWhere s (fun t => (s.context t.context).path == path)
      (if delete then .delete path else .finish .done)
  | .closeAll last => retireWhere s (fun _ => true) (.clear last)
  | .renameFile source target => beginMove s source target

/-- Starts or stops the coordinator of a context in use, as autosave is switched on or off. -/
def switchAutosave (enabled : Bool) (s : Session) (t : Tracked) : Session :=
  if !enabled then s.stopCoordinator t.coordinator
  else if (s.context t.context).isReady then s.startCoordinator t.coordinator
  else s

/-- **The contexts may be looked at.** -/
def read (s : Session) : ContextQuery → Step
  | .openContexts => reply s (.contexts (s.manager.tracked.map (·.context)))
  | .autosaveFor c =>
    reply s (.coordinator ((s.manager.tracked.find? (·.context == c)).map (·.coordinator)))
  | .setAutosave enabled => reply (s.manager.tracked.foldl (switchAutosave enabled) s) .done
  | .setInterval interval =>
    reply (s.manager.tracked.foldl (fun s t => s.setCoordinatorInterval t.coordinator interval) s)
      .done

/-- **The bindings may be looked at.** -/
def readBindings (s : Session) : BindingQuery → Step
  | .contextFor widget =>
    reply s (.context ((s.manager.bindings.find? (·.widget == widget)).map (·.context)))
  | .widgetsFor path =>
    reply s (.widgets ((s.manager.bindings.filter fun b => (s.context b.context).path == path).map
      (·.widget)))

/-- No widget was found: the call ends, or the document is opened. -/
def notFound (s : Session) : Option Wanted → Step
  | none => reply s (.widget none)
  | some w => await s (.called (.open w.path w.factory w.hint))

/-- A binding is to a live widget of a factory that shows a context. -/
def shows (s : Session) (c : ContextId) (factory : WidgetFactory) (b : Binding) : Bool :=
  b.context == c &&
    match s.widget? b.widget with
    | some w => !w.disposed && Text.sameAscii w.factoryName factory.name
    | none => false

/-- **A widget is to be taken out.**  The last one of a document with changes only goes once the
host has agreed; with the last one goes the context. -/
def unbind (s : Session) (widget : WidgetId) (confirmed : Bool) : Step :=
  match s.manager.bindings.find? (·.widget == widget) with
  | none => fail s (.widgetNotFound widget)
  | some b =>
    let isLast := (s.manager.bindings.filter (·.context == b.context)).length == 1
    if isLast && !confirmed && (s.context b.context).model.dirty then
      await s (.confirming widget)
    else
      let s := (s.setBindings (s.manager.bindings.eraseP (·.widget == widget))).retireWidget widget
      if !isLast then reply s (.closed true)
      else
        match s.manager.tracked.find? (·.context == b.context) with
        | none => reply s (.closed true)
        | some t =>
          retireEach (s.setTracked (s.manager.tracked.eraseP (·.context == b.context))) [t]
            (.finish (.closed true))

end Manager

/-- **Goes on with a call** that has got what it waited for. -/
def Stage.resume (s : Session) : (stage : Stage) → stage.need.Answer → Manager.Step
  | .called op, () =>
    if s.manager.disposed then Manager.beginDisposed s op else Manager.begin s op
  | .updating update, () => Manager.update s update
  | .reading query, () => Manager.read s query
  | .finding path widget model otherwise, () =>
    match s.manager.tracked.find? fun t => s.isOpenFor t path model.name with
    | some t => Manager.await s (.searching t.context widget otherwise)
    | none => Manager.notFound s otherwise
  | .searching c widget otherwise, () =>
    match s.manager.bindings.find? (Manager.shows s c widget) with
    | some b => Manager.reply s (.widget (some b.widget))
    | none => Manager.notFound s otherwise
  | .readingBindings query, () => Manager.readBindings s query
  | .closing t rest after, () => Manager.retireEach (s.retireContext t) rest after
  | .binding w c, () =>
    Manager.reply (s.setBindings (s.manager.bindings ++ [⟨w, c⟩])) (.widget (some w))
  | .unbinding widget confirmed, () => Manager.unbind s widget confirmed
  | .confirming widget, agreed =>
    if agreed then Manager.await s (.updating (.closeWidget widget true))
    else Manager.reply s (.closed false)
  | .clearing last, () =>
    let s := s.setBindings []
    Manager.reply (if last then { s with manager.disposed := true } else s) .done
  | .moving _ _ _, .error e => Manager.fail s (.store e)
  | .moving source target models, .ok _ =>
    Manager.retireWhere s (Manager.isDisplaced s target models) (.follow source target)
  | .deleting _, .error e => Manager.fail s (.store e)
  | .deleting _, .ok () => Manager.reply s .deleted

end Folio
