/-
# Carrying out a command

A command is carried out at once, or it begins a process whose end is its reply.  `World.begin`
tells the two apart, and `World.conclude` makes the reply of a process that has ended.
-/
import Folio.Host.World

namespace Folio.Host

namespace World

/-- **How a command is carried out**: at once with a reply, or by something that takes its time. -/
abbrev Begun : Type := World × (Reply ⊕ Activity)

/-- At once. -/
def done (w : World) (r : Reply) : Begun := (w, .inl r)

/-- By a process. -/
def run (w : World) (p : Process) : Begun := (w, .inr (.process p))

/-- Replaces the session. -/
def withSession (w : World) (session : Session) : World := { w with session }

/-! ## 1. Labels -/

/-- The context of a label. -/
def contextOf? (w : World) : Label → Option ContextId
  | some c => if c < w.session.contexts.length then some c else none
  | none => none

/-- The widget of a label; a label that names none stands for a foreign widget. -/
def widgetOf (w : World) : Label → WidgetId
  | some n => if n < w.session.widgets.length then .issued n else .foreign
  | none => .foreign

/-- The coordinator of a label. -/
def coordinatorOf? (w : World) : Label → Option HeldCoordinator
  | some a => w.coordinators[a]?.join
  | none => none

/-- The label of a coordinator, a new one if the host does not hold it. -/
def labelCoordinator (w : World) (k : CoordinatorId) : World × Nat :=
  match w.coordinators.findIdx? fun h => h.any (·.coordinator == k) with
  | some a => (w, a)
  | none =>
    let held : HeldCoordinator := ⟨k, false⟩
    ({ w with coordinators := w.coordinators ++ [some held] }, w.coordinators.length)

/-- What the host sees of a widget. -/
def view? (w : World) (id : WidgetId) : Option WidgetView :=
  (w.session.widget? id).map fun widget =>
    ⟨id, widget.context, widget.factoryName, widget.disposed⟩

/-! ## 2. Commands to the store -/

/-- The reply to a call of the store. -/
def storeReply : (r : StoreRequest) → r.Reply → Reply
  | .get _ _, reply => .ofExcept .store .file reply
  | .save _ _, reply => .ofExcept .store .metadata reply
  | .rename _ _, reply => .ofExcept .store .metadata reply
  | .delete _, reply => .ofExcept .store (fun _ => .ok) reply
  | .createCheckpoint _, reply => .ofExcept .store .checkpoint reply
  | .listCheckpoints _, reply => .ofExcept .store .checkpoints reply
  | .restoreCheckpoint _ _, reply => .ofExcept .store (fun _ => .ok) reply

/-- Carries out a command to the store. -/
def beginStoreCommand (w : World) (command : StoreCommand) : Begun :=
  let memory := w.store.memory
  match command with
  | .clock millis => { w with store.memory.wallClock := millis }.done .nothing
  | .write path content =>
    let (memory, result) := memory.write path content
    { w with store.memory := memory }.done (.ofExcept .store .metadata result)
  | .setWritable path writable =>
    { w with store.memory := memory.setWritable path writable }.done .nothing
  | .content path => w.done (.content (memory.content? path))
  | .contains path => w.done (.bool (memory.contains path))
  | .setAvailable available => { w with store.memory.available := available }.done .nothing
  | .setMetadataAvailable available =>
    { w with store.memory.metadataAvailable := available }.done .nothing
  | .setSaveDelay millis => { w with store.memory.saveDelay := millis }.done .nothing
  | .setDelay call millis =>
    { w with store.delays := w.store.delays.put call millis }.done .nothing
  | .fail call error =>
    { w with store.failures := w.store.failures ++ [(call, error)] }.done .nothing
  | .setStripContent strip => { w with store.stripContent := strip }.done .nothing
  | .calls => w.done (.calls memory.calls)
  | .perform request =>
    let (memory, reply) := memory.perform request
    { w with store.memory := memory }.done (storeReply request reply)
  | .save path request => (w, .inr (.saving path request))

/-! ## 3. Commands to contexts and coordinators -/

/-- Loads a content into the model of a context. -/
def loadContent (w : World) (c : ContextId) (content : Content) (edit : Bool) : Begun :=
  let context := w.session.context c
  match context.model.load content with
  | .error e => w.done (.failed (.model e))
  | .ok model =>
    let model := if edit then model.setDirty true else model
    (w.withSession (w.session.setContext c { context with model })).done .ok

/-- Carries out a command to a context. -/
def beginContextCommand (w : World) (c : ContextId) (command : ContextCommand) : Begun :=
  let context := w.session.context c
  let put := fun context => w.withSession (w.session.setContext c context)
  match command with
  | .perform op => w.run (.operation c op)
  | .awaitReady => w.run (.awaitReady c)
  | .followMove target => (put (context.followMove target)).done .nothing
  | .dispose => (put context.dispose).done .nothing
  | .setDirty dirty => (put { context with model := context.model.setDirty dirty }).done .nothing
  | .setReadOnly readOnly =>
    (put { context with model := context.model.setReadOnly readOnly }).done .nothing
  | .load content edit => w.loadContent c content edit
  | .state => w.done (.contextState context)

/-- Carries out a command to a coordinator; the reply is its state afterwards. -/
def beginCoordinatorCommand (w : World) (k : CoordinatorId) (command : CoordinatorCommand) :
    Begun :=
  let session := match command with
    | .start => w.session.startCoordinator k
    | .stop => w.session.stopCoordinator k
    | .setInterval interval => w.session.setCoordinatorInterval k interval
    | .state => w.session
  (w.withSession session).done (.coordinatorState (session.coordinator k))

/-- Makes a coordinator for a context. -/
def newCoordinator (w : World) (c : ContextId) (interval : Duration) : Begun :=
  let (session, k) := w.session.addCoordinator (.create c interval)
  let held : HeldCoordinator := ⟨k, true⟩
  { w with session, coordinators := w.coordinators ++ [some held] }.done
    (.coordinator (some w.coordinators.length))

/-- Gives a coordinator up; one that the host made is stopped by that. -/
def dropCoordinator (w : World) (label : Label) : Begun :=
  match label, w.coordinatorOf? label with
  | some a, some h =>
    let session := if h.own then w.session.stopCoordinator h.coordinator else w.session
    { w with session, coordinators := w.coordinators.set a none }.done (.bool true)
  | _, _ => w.done (.bool false)

/-! ## 4. All commands -/

/-- **Begins a command.** -/
def begin (w : World) : Command → Begun
  | .registry command =>
    let (catalog, reply) := Catalog.run ⟨w.session.registry, w.held⟩ command
    { w with session.registry := catalog.registry, held := catalog.held }.done reply
  | .store command => w.beginStoreCommand command
  | .newContext path modelFactory contentType kind =>
    let (session, c) := w.session.addContext
      { path, modelFactory, contentType, model := .create kind }
    (w.withSession session).done (.context (some c))
  | .context label command =>
    match w.contextOf? label with
    | some c => w.beginContextCommand c command
    | none => w.done (.failed (.refused .unknownContext))
  | .newCoordinator label interval =>
    match w.contextOf? label with
    | some c => w.newCoordinator c interval
    | none => w.done (.failed (.refused .unknownContext))
  | .coordinator label command =>
    match w.coordinatorOf? label with
    | some h => w.beginCoordinatorCommand h.coordinator command
    | none => w.done (.failed (.refused .unknownCoordinator))
  | .dropCoordinator label => w.dropCoordinator label
  | .manager op => w.run (.manager (.called op))
  | .contextFor label => w.run (.manager (.called (.contextFor (w.widgetOf label))))
  | .close label => w.run (.manager (.called (.closeWidget (w.widgetOf label))))
  | .autosaveFor label =>
    match w.contextOf? label with
    | some c => w.run (.manager (.called (.autosaveFor c)))
    | none => w.done (.failed (.refused .unknownContext))
  | .isDisposed => w.done (.bool w.session.manager.disposed)
  | .registrySize => w.done (.number w.session.registry.widgets.length)
  | .widgetState label => w.done (.widget (w.view? (w.widgetOf label)))
  | .widgetDispose label =>
    (w.withSession (w.session.disposeWidget (w.widgetOf label))).done .nothing
  | .viewHints => w.done (.hints ((w.session.widgets.filter (·.custom)).map (·.hint)))
  | .advance millis => w.run (.pause millis)
  | .invalid cause => w.done (.failed (.refused cause))

/-! ## 5. Replies of processes -/

/-- The reply to an operation on a context. -/
def contextReply : ContextResult → Reply
  | .ok .done => .ok
  | .ok (.metadata m) => .metadata m
  | .ok (.checkpoint c) => .checkpoint c
  | .ok (.checkpoints cs) => .checkpoints cs
  | .error e => .failed (.context e)

/-- The reply to a call of the manager. -/
def managerReply (w : World) : ManagerResult → World × Reply
  | .ok .done => (w, .nothing)
  | .ok .renamed => (w, .ok)
  | .ok .deleted => (w, .ok)
  | .ok (.closed yes) => (w, .bool yes)
  | .ok (.widget id) => (w, .widget (id.bind w.view?))
  | .ok (.widgets ids) => (w, .widgets ids)
  | .ok (.context c) => (w, .context c)
  | .ok (.contexts cs) => (w, .contexts cs)
  | .ok (.coordinator none) => (w, .coordinator none)
  | .ok (.coordinator (some k)) =>
    let (w, a) := w.labelCoordinator k
    (w, .coordinator (some a))
  | .error e => (w, .failed (.manager e))

/-- **The reply of a process that has ended.** -/
def conclude (w : World) : Outcome → World × Reply
  | .silent => (w, .nothing)
  | .context result => (w, contextReply result)
  | .manager result => w.managerReply result
  | .readiness none => (w, .failed .timeout)
  | .readiness (some result) => (w, .ofExcept .context (fun _ => .ok) result)
  | .paused => (w, .nothing)

end World

end Folio.Host
