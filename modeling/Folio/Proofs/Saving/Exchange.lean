/-
# A document and its store

One context exchanges its document with a store: operations and attempts to save run side by side,
the model is edited meanwhile, and no other client writes the file.  A call of the store takes
effect at one instant between its call and its return, and nothing is assumed about how long it
takes before and after.  So a process that waits for the store is kept with the reply that it is
going to get, once there is one (`Thread`).

To tell which edits have been persisted, the values that the model is given by edits are numbered,
and every number is a version.  Versions are no part of the program: nothing that it does depends on
them.  A save carries the version that it has taken the content from, and a reload the version that
the store had when it was read.

A timer loop does nothing to a document but start attempts; here an attempt may enter at any time.
-/
import Folio.Proofs.Ensemble.Basic
import Folio.Store.InMemory

namespace Folio

/-! ## 1. Calls of the store -/

/-- The store carries out a call, if that is what is waited for. -/
def Need.carryOut (store : MemoryStore) : (n : Need) → Option (MemoryStore × n.Answer)
  | .store request => some (store.perform request)
  | .turn => none
  | .lock _ _ => none
  | .ask _ => none
  | .confirm _ => none
  | .tick _ _ _ _ _ => none
  | .readiness _ => none
  | .pause _ => none

/-- What a process gets: of the store what it has replied, if it has, and of all others what the
oracle says. -/
def Need.answer? (oracle : Oracle) : (n : Need) → Option n.Answer → Option n.Answer
  | .store _, reply => reply
  | .turn, _ => some ()
  | .lock _ _, _ => some ()
  | .ask prompt, _ => some (oracle (.ask prompt))
  | .confirm w, _ => some (oracle (.confirm w))
  | .tick k number c place interval, _ => some (oracle (.tick k number c place interval))
  | .readiness c, _ => some (oracle (.readiness c))
  | .pause _, _ => some ()

/-- A call of the store is waited for. -/
def Need.isStore : Need → Bool
  | .store _ => true
  | _ => false

/-- Of the store one gets what it has replied. -/
theorem Need.answer?_of_isStore {oracle : Oracle} {n : Need} {reply : Option n.Answer}
    (h : n.isStore = true) : n.answer? oracle reply = reply := by
  cases n with
  | store request => rfl
  | _ => cases h

namespace Process

/-- The process waits for its save. -/
def saves : Process → Bool
  | .calling _ (.saving _ _ _) => true
  | .attempt _ (.saving _ _ _) => true
  | _ => false

/-- The process waits for its reload. -/
def reloads : Process → Bool
  | .calling _ (.reverting _ _) => true
  | .attempt _ (.reverting _) => true
  | _ => false

/-- The answer says that a save was done. -/
def saved : (p : Process) → p.need.Answer → Bool
  | .calling _ (.saving _ _ _), .ok _ => true
  | .attempt _ (.saving _ _ _), .ok _ => true
  | _, _ => false

/-- The answer is the file that was to be reloaded. -/
def reloaded : (p : Process) → p.need.Answer → Bool
  | .calling _ (.reverting _ _), .ok _ => true
  | .attempt _ (.reverting _), .ok _ => true
  | _, _ => false

end Process

/-! ## 2. Exchanges and their moves -/

/-- **A process, and what the store has done for it.** -/
structure Thread where
  process : Process
  /-- The reply of the store, once its call has taken effect. -/
  reply : Option process.need.Answer := none
  /-- The version that its save or its reload carries. -/
  carries : Nat := 0

/-- **A document that is exchanged with a store.** -/
structure Exchange where
  session : Session
  store : MemoryStore
  /-- The context of the document. -/
  document : ContextId
  threads : List Thread := []
  /-- All versions of the document, by their numbers. -/
  values : List ModelValue
  /-- The version that the model holds. -/
  held : Nat := 0
  /-- The version that the store keeps. -/
  kept : Nat := 0

namespace Exchange

/-- **What happens next.** -/
inductive Move where
  /-- The text or the bytes of the model are replaced. -/
  | edit (value : ModelValue)
  | save
  | revert
  /-- A coordinator of the context starts an attempt. -/
  | attempt (k : CoordinatorId)
  /-- The host does something else. -/
  | deed (d : Deed)
  /-- The store goes offline or online, and time passes there. -/
  | conditions (available metadataAvailable : Bool) (clock : Int)
  /-- The file is marked writable or not. -/
  | setWritable (writable : Bool)
  /-- The store carries out the call that a process waits for. -/
  | carryOut (i : Nat)
  /-- A process goes on. -/
  | go (i : Nat) (oracle : Oracle)

/-- The deed neither replaces the model of a context nor moves one. -/
def sparesDocuments : Deed → Bool
  | .setModel _ _ => false
  | .followMove _ _ => false
  | _ => true

/-- The context of the document. -/
def context (x : Exchange) : Context := x.session.context x.document

/-- What the model holds. -/
def value (x : Exchange) : ModelValue := x.context.model.value

/-- A process enters. -/
def enter (x : Exchange) (p : Process) : Exchange :=
  { x with threads := x.threads ++ [{ process := p }] }

/-- The model is edited: this is a new version. -/
def edit (x : Exchange) (value : ModelValue) : Exchange :=
  { x with
    session := x.session.setContext x.document
      { x.context with model := x.context.model.edit value }
    values := x.values ++ [value]
    held := x.values.length }

/-- **The store carries out a call**, if it has not yet.  A save that is done leaves the version
that it carries, and a reload carries the version that is there. -/
def carryOut (x : Exchange) (i : Nat) : Exchange :=
  match x.threads[i]? with
  | none => x
  | some t =>
    if t.reply.isSome then x
    else
      match t.process.need.carryOut x.store with
      | none => x
      | some (store, reply) =>
        let carries := if t.process.reloads then x.kept else t.carries
        { x with
          store
          threads := x.threads.set i { process := t.process, reply := some reply, carries }
          kept := if t.process.saved reply then t.carries else x.kept }

/-- **A process goes on**, if it has what it waits for.  A reload that succeeds leaves the model
with the version that it carries.  What it does next carries the version that the model holds. -/
def go (x : Exchange) (i : Nat) (oracle : Oracle) : Exchange :=
  match x.threads[i]? with
  | none => x
  | some t =>
    match t.process.need.answer? oracle t.reply with
    | none => x
    | some answer =>
      let step := t.process.resume x.session answer
      let held := if t.process.reloaded answer then t.carries else x.held
      { x with
        session := step.1
        threads := x.threads.eraseIdx i ++
          (Ensemble.continuing step.2).map fun p => { process := p, carries := held }
        held }

/-- **One move**; one that is not possible changes nothing. -/
def step (x : Exchange) : Move → Exchange
  | .edit value => if value.kind = x.value.kind then x.edit value else x
  | .save => x.enter (.operation x.document .save)
  | .revert => x.enter (.operation x.document .revert)
  | .attempt k =>
    if k < x.session.coordinators.length ∧ (x.session.coordinator k).context = x.document then
      x.enter (.attempt k .due)
    else x
  | .deed d => if sparesDocuments d then { x with session := d.apply x.session } else x
  | .conditions available metadataAvailable clock =>
    { x with
      store := { x.store with available, metadataAvailable, wallClock := clock } }
  | .setWritable writable => { x with store := x.store.setWritable x.context.path writable }
  | .carryOut i => x.carryOut i
  | .go i oracle => x.go i oracle

/-- **A run**: one move after the other. -/
def run (x : Exchange) (moves : List Move) : Exchange := moves.foldl step x

/-- A document that nobody works on; what its model holds is the first version. -/
def start (session : Session) (store : MemoryStore) (document : ContextId) : Exchange :=
  { session, store, document, values := [(session.context document).model.value] }

/-! ## 3. What is to be shown -/

/-- No call of the store is in flight. -/
def quiet (x : Exchange) : Bool := x.threads.all fun t => !t.process.need.isStore

/-- The model counts as persisted. -/
def clean (x : Exchange) : Bool := !x.context.model.dirty

/-- **What a fresh model of the same kind gets** when it loads what the store has for the path. -/
def fresh? (x : Exchange) : Option ModelValue :=
  (x.store.content? x.context.path).bind fun content =>
    ((Model.create x.value.kind).load content).toOption.map (·.value)

/-- **The document is in sync**: that is the value of the model. -/
def InSync (x : Exchange) : Prop := x.fresh? = some x.value

instance (x : Exchange) : Decidable x.InSync :=
  inferInstanceAs (Decidable (x.fresh? = some x.value))

/-- A save is in flight. -/
def isSaving (x : Exchange) : Bool := x.threads.any fun t => t.process.saves

/-- A reload is in flight. -/
def isReloading (x : Exchange) : Bool := x.threads.any fun t => t.process.reloads

/-- **The move is calm**: it is no edit while a save is in flight, and it does not lead to where a
save and a reload are in flight at the same time. -/
def isCalm (x : Exchange) (m : Move) : Bool :=
  (match m with
    | .edit _ => !x.isSaving
    | _ => true) &&
  !((x.step m).isSaving && (x.step m).isReloading)

/-- Every move of the run is calm. -/
def isCalmRun : Exchange → List Move → Bool
  | _, [] => true
  | x, m :: moves => x.isCalm m && isCalmRun (x.step m) moves

end Exchange

end Folio
