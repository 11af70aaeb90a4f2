/-
# Contexts

A context is one open document: its path, its model, and what the store last said about the file.
Every widget that shows the document shares it.

The operations that talk to the store are cut in two here, because a call of the store takes time
and other things happen meanwhile.  What a save sends is `saveRequest`; what becomes of the answer
is `afterSave`; and so on for the others.  An answer that is an error changes nothing.

Whatever changes about a context that others may follow is announced as an event.
-/
import Folio.Document.Model
import Folio.Journal.Basic
import Folio.Store.Contract

namespace Folio

/-- **Contexts are numbered** in the order in which they are made. -/
abbrev ContextId : Type := Nat

/-- **How far a context has come.** -/
inductive Phase where
  /-- The first load or save is under way. -/
  | loading
  /-- The model is filled and the metadata are known. -/
  | ready
  /-- The first load or save failed. -/
  | failed (message : String)
  /-- The context is closed for good. -/
  | disposed
  deriving DecidableEq, Repr

/-- **What a context announces.** -/
inductive Announcement where
  /-- The first load or save succeeded. -/
  | ready
  /-- The document moved. -/
  | pathChanged (path : String)
  /-- The metadata are new, after a save, a reload or a move. -/
  | fileChanged (metadata : Metadata)
  /-- A save is done. -/
  | saved (metadata : Metadata)
  /-- The context is closed. -/
  | disposed
  deriving DecidableEq, Repr

/-- **Why an operation on a context fails.** -/
inductive ContextError where
  | disposed
  | store (cause : StoreError)
  | model (cause : ModelError)
  /-- The store gave no content for the path. -/
  | missingContent (path : String)
  /-- The first load or save failed before. -/
  | loadFailed (message : String)
  deriving DecidableEq, Repr

/-- The text of the error. -/
def ContextError.message : ContextError → String
  | .disposed => "Context is disposed"
  | .store cause => "Store error: " ++ cause.message
  | .model cause => "Model error: " ++ cause.message
  | .missingContent path => "Store returned no content for " ++ path
  | .loadFailed message => "Context failed to load: " ++ message

/-- **The operation breaks off**, instead of coming to its end with an error. -/
def ContextError.breaksOff : ContextError → Bool
  | .store .overflow => true
  | _ => false

/-- **An open document.** -/
structure Context where
  path : String
  /-- The name of the factory that made the model. -/
  modelFactory : String
  contentType : String
  model : Model
  /-- What the store last said about the file. -/
  remote : Option Metadata := none
  state : Phase := .loading
  events : Journal Announcement := .create

namespace Context

/-- A closed context without content. -/
def blank : Context :=
  { path := "", modelFactory := "", contentType := "", model := .create .text, state := .disposed }

instance : Inhabited Context := ⟨blank⟩

/-! ## 1. Looking at a context -/

/-- The context is closed. -/
def isDisposed (c : Context) : Bool := c.state == .disposed

/-- The context is ready. -/
def isReady (c : Context) : Bool := c.state == .ready

/-- The first load or save failed, and the context is not closed. -/
def hasFailed (c : Context) : Bool :=
  match c.state with
  | .failed _ => true
  | _ => false

/-- Fails on a closed context. -/
def requireLive (c : Context) : Except ContextError Unit :=
  if c.isDisposed then .error .disposed else .ok ()

/-- What a save of the document hands over. -/
def saveRequest (c : Context) : SaveRequest := ⟨c.contentType, c.model.content⟩

/-- Announces an event. -/
def emit (c : Context) (e : Announcement) : Context := { c with events := c.events.emit e }

/-! ## 2. What becomes of an answer -/

/-- **A save was answered.**  The model counts as persisted as it is now. -/
def afterSave (c : Context) : Except StoreError Metadata → Context × Except ContextError Unit
  | .error e => (c, .error (.store e))
  | .ok m =>
    let c := { c with remote := some m, model := c.model.setDirty false }
    ((c.emit (.saved m)).emit (.fileChanged m), .ok ())

/-- **A reload of `path` was answered.**  The model takes over the content and whether the file can
be written. -/
def afterRevert (c : Context) (path : String) :
    Except StoreError RemoteFile → Context × Except ContextError Unit
  | .error e => (c, .error (.store e))
  | .ok file =>
    match file.content with
    | none => (c, .error (.missingContent path))
    | some content =>
      match c.model.load content with
      | .error e => (c, .error (.model e))
      | .ok model =>
        let model := (model.setDirty false).setReadOnly !file.writable
        let c := { c with model, remote := some file.metadata }
        (c.emit (.fileChanged file.metadata), .ok ())

/-- **Follows a move** to a path; staying in place is no move. -/
def followMove (c : Context) (target : String) : Context :=
  if c.path = target then c else { c with path := target }.emit (.pathChanged target)

/-- A move in the store was answered. -/
def afterRename (c : Context) (target : String) :
    Except StoreError Metadata → Context × Except ContextError Unit
  | .error e => (c, .error (.store e))
  | .ok m => ({ c.followMove target with remote := some m }.emit (.fileChanged m), .ok ())

/-- **The first load or save has ended** with a result.  Only a context that is still loading
becomes ready or failed by it; one whose first save breaks off is left loading. -/
def settle (c : Context) (result : Except ContextError Unit) : Context :=
  match c.state, result with
  | .loading, .ok () => { c with state := .ready }.emit .ready
  | .loading, .error e => if e.breaksOff then c else { c with state := .failed e.message }
  | _, _ => c

/-- **What the end of the first load or save does**: nothing, unless the context is loading. -/
theorem settle_cases (c : Context) (result : Except ContextError Unit) :
    c.settle result = c ∨
      (c.state = .loading ∧ result = .ok () ∧
        c.settle result = { c with state := .ready }.emit .ready) ∨
      (c.state = .loading ∧ ∃ e : ContextError,
        c.settle result = { c with state := .failed e.message }) := by
  unfold settle
  split
  · next loading => exact .inr (.inl ⟨loading, rfl, rfl⟩)
  · next e loading =>
    split
    · exact .inl rfl
    · exact .inr (.inr ⟨loading, e, rfl⟩)
  · exact .inl rfl

/-- It changes the phase, and announces it, and nothing else. -/
theorem settle_eq (c : Context) (result : Except ContextError Unit) :
    ∃ state events, c.settle result = { c with state, events } := by
  rcases c.settle_cases result with same | ⟨-, -, same⟩ | ⟨-, e, same⟩
  · exact ⟨_, _, same⟩
  · exact ⟨_, _, same⟩
  · exact ⟨_, _, same⟩

/-- **Closes the context**, once. -/
def dispose (c : Context) : Context :=
  if c.isDisposed then c else { c with state := .disposed }.emit .disposed

/-- The result of waiting for the first load or save, once it is over. -/
def readiness (c : Context) : Except ContextError Unit :=
  match c.state with
  | .failed message => .error (.loadFailed message)
  | .disposed => .error .disposed
  | .loading => .ok ()
  | .ready => .ok ()

/-- **A reload is done or fails.**  One that fails for whatever reason leaves the context as it was;
one that is done makes the metadata known and puts a model without changes in the place of the old
one, which is read-only if the file is not writable. -/
theorem afterRevert_cases (c : Context) (path : String) (reply : Except StoreError RemoteFile) :
    (∃ e, c.afterRevert path reply = (c, .error e)) ∨
      ∃ file, ∃ model : Model, reply = .ok file ∧ c.afterRevert path reply =
        ({ c with
            model := (model.setDirty false).setReadOnly !file.writable
            remote := some file.metadata }.emit (.fileChanged file.metadata), .ok ()) := by
  unfold afterRevert
  split
  · exact .inl ⟨_, rfl⟩
  · split
    · exact .inl ⟨_, rfl⟩
    · split
      · exact .inl ⟨_, rfl⟩
      · exact .inr ⟨_, _, rfl, rfl⟩

theorem afterRevert_of_error {c : Context} {path : String} {reply : Except StoreError RemoteFile}
    {e : ContextError} (h : (c.afterRevert path reply).2 = .error e) :
    (c.afterRevert path reply).1 = c := by
  rcases c.afterRevert_cases path reply with ⟨_, failed⟩ | ⟨file, model, -, done⟩
  · rw [failed]
  · rw [done] at h
    cases h

theorem isDisposed_dispose (c : Context) : c.dispose.isDisposed = true := by
  unfold dispose
  split
  · assumption
  · rfl

end Context

end Folio
