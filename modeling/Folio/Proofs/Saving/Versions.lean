/-
# Versions of a document

In every run of an exchange the model holds the value of the version that is held, and the store has
a content that loads as the value of the version that is kept.  What makes this an invariant is what
is in flight: a save hands over the content of the version that it carries, and a reload that the
store has replied to brings the content of the version that it carries (`Exchange.Fits`).

So whether a document is in sync is a question about two versions, whatever has happened
(`Exchange.Versioned.inSync_iff`).
-/
import Folio.Proofs.Autosave.Steps
import Folio.Proofs.Document.RoundTrip
import Folio.Proofs.Saving.Exchange
import Folio.Proofs.Store.Calls

namespace Folio

/-! ## 1. What calls do to a file -/

namespace MemoryStore

theorem content?_revise (s : MemoryStore) (path : String) (content : Content) :
    (s.revise path content).content? path = some content := by
  simp only [revise, content?, Table.get?_put, if_true]
  split <;> rfl

theorem content?_setWritable (s : MemoryStore) (path : String) (writable : Bool) (other : String) :
    (s.setWritable path writable).content? other = s.content? other := by
  unfold setWritable
  split
  · next file h =>
    simp only [content?, Table.get?_put]
    split
    · next same =>
      rw [same, h]
      rfl
    · rfl
  · rfl

/-- A file that is read with its content brings the content that is there. -/
theorem content_of_read {s : MemoryStore} {path : String} {file : RemoteFile}
    (h : s.read path true = .ok file) :
    ∃ content, file.content = some content ∧ s.content? path = some content := by
  obtain ⟨f, found, rfl⟩ := get?_of_read h
  exact ⟨f.content, rfl, by rw [content?, found]; rfl⟩

end MemoryStore

/-! ## 2. What a step does to the document -/

namespace Context

/-- **A reload that succeeds** leaves the model clean with the value that was loaded. -/
theorem model_afterRevert {c : Context} {file : RemoteFile} {content : Content} {v : ModelValue}
    (path : String) (h : file.content = some content) (loads : c.model.kind.load content = .ok v) :
    (c.afterRevert path (.ok file)).1.model = ⟨v, false, !file.writable⟩ := by
  simp only [afterRevert, h, Model.load, loads, Except.map]
  rfl

end Context

/-- What the host does to a session leaves the models alone, if it is to spare documents. -/
theorem Session.model_deed {s : Session} {c : ContextId} (made : c < s.contexts.length) :
    {d : Deed} → Exchange.sparesDocuments d = true →
    ((d.apply s).context c).model = (s.context c).model
  | .setRegistry _, _ => rfl
  | .setClock _, _ => rfl
  | .disposeContext d, _ => by
    refine Session.looks_setContext Context.model ?_ c
    unfold Context.dispose
    split <;> rfl
  | .disposeWidget w, _ => by cases w <;> rfl
  | .newContext _ _ _ _, _ => by rw [Deed.apply, Session.context_addContext_of_lt _ made]
  | .newCoordinator _ _, _ => rfl
  | .startCoordinator k, _ => by
    rw [Deed.apply, Session.context_startCoordinator]
  | .stopCoordinator _, _ => rfl
  | .setInterval _ _, _ => rfl

/-! ## 3. The invariant -/

namespace Exchange

/-- The coordinator is one of the document. -/
def Owns (x : Exchange) (k : CoordinatorId) : Prop :=
  k < x.session.coordinators.length ∧ (x.session.coordinator k).context = x.document

/-- **The content loads as the value of a version.** -/
def IsVersion (x : Exchange) (n : Nat) (content : Content) : Prop :=
  ∃ v, x.values[n]? = some v ∧ x.value.kind.load content = .ok v

/-- **What is in flight fits**: it is about the document, a save hands over the version that it
carries, and a reload that has its reply brings the version that it carries. -/
def Fits (x : Exchange) : Thread → Prop
  | ⟨.operation c op, _, _⟩ => c = x.document ∧ (op = .save ∨ op = .revert)
  | ⟨.calling c (.saving path request _), _, n⟩ =>
    c = x.document ∧ path = x.context.path ∧ x.IsVersion n request.content
  | ⟨.calling c (.reverting path _), reply, n⟩ =>
    c = x.document ∧ path = x.context.path ∧
      ∀ file, reply = some (.ok file) → ∃ content, file.content = some content ∧
        x.IsVersion n content
  | ⟨.attempt k (.saving _ path request), _, n⟩ =>
    x.Owns k ∧ path = x.context.path ∧ x.IsVersion n request.content
  | ⟨.attempt k (.reverting path), reply, n⟩ =>
    x.Owns k ∧ path = x.context.path ∧
      ∀ file, reply = some (.ok file) → ∃ content, file.content = some content ∧
        x.IsVersion n content
  | ⟨.attempt k .due, _, _⟩ => x.Owns k
  | ⟨.attempt k (.checking _), _, _⟩ => x.Owns k
  | ⟨.attempt k (.asking _), _, _⟩ => x.Owns k
  | _ => False

/-- **The invariant of runs.** -/
structure Versioned (x : Exchange) : Prop where
  made : x.document < x.session.contexts.length
  /-- All versions are of one kind. -/
  kinds : ∀ v ∈ x.values, v.kind = x.value.kind
  /-- The model holds the version that is held. -/
  held : x.values[x.held]? = some x.value
  /-- The store keeps the version that is kept. -/
  kept : ∃ content, x.store.content? x.context.path = some content ∧ x.IsVersion x.kept content
  threads : ∀ t ∈ x.threads, x.Fits t

/-- A fresh model gets what its kind loads. -/
theorem fresh?_eq (x : Exchange) : x.fresh? =
    (x.store.content? x.context.path).bind fun content => (x.value.kind.load content).toOption := by
  have kind : (Model.create x.value.kind).kind = x.value.kind := by
    cases x.value.kind <;> rfl
  unfold fresh?
  congr 1
  funext content
  rw [Model.load, kind]
  cases x.value.kind.load content <;> rfl

/-- **A document is in sync just if the version that is held and the one that is kept have the same
value.** -/
theorem Versioned.inSync_iff {x : Exchange} (h : x.Versioned) :
    x.InSync ↔ x.values[x.held]? = x.values[x.kept]? := by
  obtain ⟨content, there, v, version, loads⟩ := h.kept
  have fresh : x.fresh? = some v := by
    rw [fresh?_eq, there, Option.bind_some, loads]
    rfl
  rw [InSync, fresh, h.held, version, eq_comm]

/-! ## 4. What stays -/

/-- **An exchange goes on**: the document stays where it is and of its kind, versions are only
added, and coordinators stay with it. -/
structure GoesOn (x y : Exchange) : Prop where
  document : y.document = x.document
  made : x.document < x.session.contexts.length → x.document < y.session.contexts.length
  path : y.context.path = x.context.path
  kind : y.value.kind = x.value.kind
  values : ∃ more, y.values = x.values ++ more
  owns : ∀ k, x.Owns k → y.Owns k

theorem IsVersion.goesOn {x y : Exchange} {n : Nat} {content : Content}
    (h : x.IsVersion n content) (on : x.GoesOn y) : y.IsVersion n content := by
  obtain ⟨v, version, loads⟩ := h
  obtain ⟨more, values⟩ := on.values
  refine ⟨v, ?_, ?_⟩
  · rw [values]
    exact List.getElem?_append_left (List.getElem?_eq_some_iff.mp version).1 ▸ version
  · rw [on.kind]
    exact loads

/-- What fits goes on fitting. -/
theorem Fits.goesOn {x y : Exchange} (on : x.GoesOn y) {t : Thread} (fits : x.Fits t) :
    y.Fits t := by
  obtain ⟨process, reply, n⟩ := t
  cases process with
  | operation c op => exact ⟨fits.1.trans on.document.symm, fits.2⟩
  | calling c call =>
    cases call with
    | saving path request first =>
      exact ⟨fits.1.trans on.document.symm, fits.2.1.trans on.path.symm, fits.2.2.goesOn on⟩
    | reverting path first =>
      refine ⟨fits.1.trans on.document.symm, fits.2.1.trans on.path.symm, fun file replied => ?_⟩
      obtain ⟨content, brings, version⟩ := fits.2.2 file replied
      exact ⟨content, brings, version.goesOn on⟩
    | _ => exact fits.elim
  | attempt k stage =>
    cases stage with
    | due => exact on.owns k fits
    | checking path => exact on.owns k fits
    | asking prompt => exact on.owns k fits
    | saving since path request =>
      exact ⟨on.owns k fits.1, fits.2.1.trans on.path.symm, fits.2.2.goesOn on⟩
    | reverting path =>
      refine ⟨on.owns k fits.1, fits.2.1.trans on.path.symm, fun file replied => ?_⟩
      obtain ⟨content, brings, version⟩ := fits.2.2 file replied
      exact ⟨content, brings, version.goesOn on⟩
  | _ => exact fits.elim

/-- Coordinators stay with the document when the session advances. -/
theorem Owns.advances {x : Exchange} {k : CoordinatorId} (owns : x.Owns k) (y : Exchange)
    (h : x.session.Advances y.session) (document : y.document = x.document) : y.Owns k := by
  refine ⟨Nat.lt_of_lt_of_le owns.1 h.coordinators_length, ?_⟩
  rw [document]
  exact (h.coordinator k owns.1).trans owns.2

namespace Versioned

variable {x : Exchange}

/-- The content of a version is the one that it is persisted as. -/
theorem isVersion_content (h : x.Versioned) {n : Nat} {v : ModelValue}
    (version : x.values[n]? = some v) : x.IsVersion n v.content := by
  refine ⟨v, version, ?_⟩
  rw [← h.kinds v (List.mem_of_getElem? version)]
  exact v.load_content

/-- A session that advances and leaves the document alone keeps the invariant. -/
theorem of_session (h : x.Versioned) {t : Session} (advances : x.session.Advances t)
    (path : (t.context x.document).path = x.context.path)
    (model : (t.context x.document).model = x.context.model) :
    Versioned { x with session := t } := by
  have value : Exchange.value { x with session := t } = x.value := congrArg Model.value model
  have on : x.GoesOn { x with session := t } := by
    refine ⟨rfl, fun made => Nat.lt_of_lt_of_le made advances.contexts_length, path, ?_,
      ⟨[], (List.append_nil _).symm⟩, fun k owns => owns.advances _ advances rfl⟩
    rw [value]
  obtain ⟨content, there, version⟩ := h.kept
  refine ⟨on.made h.made, ?_, ?_, ⟨content, ?_, version.goesOn on⟩, ?_⟩
  · rw [value]
    exact h.kinds
  · rw [value]
    exact h.held
  · rw [on.path]
    exact there
  · exact fun t ht => (h.threads t ht).goesOn on

/-- **An edit is a new version**, which the model holds. -/
theorem edit (h : x.Versioned) {value : ModelValue} (kind : value.kind = x.value.kind) :
    (x.edit value).Versioned := by
  have context : (x.edit value).context = { x.context with model := x.context.model.edit value } :=
    Session.context_setContext _ h.made
  have now : (x.edit value).value = value := by
    rw [Exchange.value, context]
    rfl
  have evolves : (x.session.context x.document).Evolves
      { x.context with model := x.context.model.edit value } := .of_eq rfl rfl
  have advances : x.session.Advances (x.edit value).session :=
    (Session.LeavesBooks.setContext evolves).advances
  have on : x.GoesOn (x.edit value) := by
    refine ⟨rfl, fun made => Nat.lt_of_lt_of_le made advances.contexts_length, ?_, ?_,
      ⟨[value], rfl⟩, fun k owns => owns.advances _ advances rfl⟩
    · rw [context]
    · rw [now, kind]
  obtain ⟨content, there, version⟩ := h.kept
  refine ⟨on.made h.made, ?_, ?_, ⟨content, ?_, version.goesOn on⟩, ?_⟩
  · intro v hv
    rw [now, kind]
    rcases List.mem_append.mp hv with hv | hv
    · exact h.kinds v hv
    · rw [List.mem_singleton.mp hv]
      exact kind
  · rw [now]
    exact List.getElem?_concat_length
  · rw [on.path]
    exact there
  · exact fun t ht => (h.threads t ht).goesOn on

/-- A process enters that fits. -/
theorem enter (h : x.Versioned) {p : Process} (fits : x.Fits { process := p }) :
    (x.enter p).Versioned := by
  have on : x.GoesOn (x.enter p) :=
    ⟨rfl, id, rfl, rfl, ⟨[], (List.append_nil _).symm⟩, fun _ owns => owns⟩
  refine ⟨h.made, h.kinds, h.held, h.kept, fun t ht => ?_⟩
  rcases List.mem_append.mp ht with ht | ht
  · exact (h.threads t ht).goesOn on
  · rw [List.mem_singleton.mp ht]
    exact fits.goesOn on

/-- The store changes, but not what the file contains. -/
theorem of_store (h : x.Versioned) {store : MemoryStore}
    (same : store.content? x.context.path = x.store.content? x.context.path) :
    Versioned { x with store } := by
  have on : x.GoesOn { x with store } :=
    ⟨rfl, id, rfl, rfl, ⟨[], (List.append_nil _).symm⟩, fun _ owns => owns⟩
  obtain ⟨content, there, version⟩ := h.kept
  exact ⟨h.made, h.kinds, h.held, ⟨content, same.trans there, version.goesOn on⟩,
    fun t ht => (h.threads t ht).goesOn on⟩

end Versioned

/-! ## 5. The store carries out a call -/

/-- **What a save leaves in the store**: if it is done the version that it carries, and if it is
refused what was there. -/
theorem Versioned.perform_save {x : Exchange} (h : x.Versioned) {n : Nat} {request : SaveRequest}
    (version : x.IsVersion n request.content) {path : String} (here : path = x.context.path)
    {store : MemoryStore} {reply : Except StoreError Metadata}
    (performed : x.store.perform (.save path request) = (store, reply)) :
    ∃ content, store.content? x.context.path = some content ∧
      x.IsVersion (match reply with | .ok _ => n | .error _ => x.kept) content := by
  have done : x.store.countSave.commit path request.content = (store, reply) := performed
  rcases x.store.countSave.commit_cases path request.content with ⟨e, refused⟩ | written
  · obtain ⟨rfl, rfl⟩ := Prod.mk.inj (refused.symm.trans done)
    exact h.kept
  · obtain ⟨rfl, rfl⟩ := Prod.mk.inj (written.symm.trans done)
    refine ⟨request.content, ?_, version⟩
    rw [← here]
    exact MemoryStore.content?_revise _ path request.content

/-- **What a read leaves in the store and brings** is the version that is kept. -/
theorem Versioned.perform_get {x : Exchange} (h : x.Versioned) {path : String}
    (here : path = x.context.path) {store : MemoryStore} {reply : Except StoreError RemoteFile}
    (performed : x.store.perform (.get path true) = (store, reply)) :
    (∃ content, store.content? x.context.path = some content ∧ x.IsVersion x.kept content) ∧
      ∀ file, some reply = some (.ok file) →
        ∃ content, file.content = some content ∧ x.IsVersion x.kept content := by
  obtain ⟨rfl, replied⟩ := Prod.mk.inj performed
  obtain ⟨kept, known, version⟩ := h.kept
  refine ⟨⟨kept, known, version⟩, fun file brought => ?_⟩
  obtain ⟨content, brings, there⟩ :=
    MemoryStore.content_of_read (replied.trans (Option.some.inj brought))
  rw [here, known, Option.some.injEq] at there
  exact ⟨content, brings, there ▸ version⟩

/-- The exchange after the store has carried out the call of the process at a place. -/
def replied (x : Exchange) (i : Nat) (t : Thread) (store : MemoryStore)
    (reply : t.process.need.Answer) : Exchange :=
  { x with
    store
    threads := x.threads.set i
      { process := t.process, reply := some reply,
        carries := if t.process.reloads then x.kept else t.carries }
    kept := if t.process.saved reply then t.carries else x.kept }

/-- **To carry out a call** is to do nothing, or what the store performs. -/
theorem carryOut_cases (x : Exchange) (i : Nat) :
    x.carryOut i = x ∨ ∃ t store reply, x.threads[i]? = some t ∧ t.reply = none ∧
      t.process.need.carryOut x.store = some (store, reply) ∧
      x.carryOut i = x.replied i t store reply := by
  unfold carryOut
  split
  · exact Or.inl rfl
  · next t ht =>
    split
    · exact Or.inl rfl
    · next pending =>
      split
      · exact Or.inl rfl
      · next store reply done =>
        refine Or.inr ⟨t, store, reply, ht, ?_, done, rfl⟩
        simpa using pending

/-- **A call that fits** leaves a version in the store, and what it brings fits. -/
theorem Fits.carryOut {x : Exchange} (h : x.Versioned) {t : Thread} (fits : x.Fits t)
    {store : MemoryStore} {reply : t.process.need.Answer}
    (done : t.process.need.carryOut x.store = some (store, reply)) :
    (∃ content, store.content? x.context.path = some content ∧
      x.IsVersion (if t.process.saved reply then t.carries else x.kept) content) ∧
    x.Fits { process := t.process, reply := some reply,
             carries := if t.process.reloads then x.kept else t.carries } := by
  obtain ⟨process, r, n⟩ := t
  cases process with
  | calling c call =>
    cases call with
    | saving path request first =>
      have performed : x.store.perform (.save path request) = (store, reply) := Option.some.inj done
      have there := h.perform_save fits.2.2 fits.2.1 performed
      refine ⟨?_, fits⟩
      cases reply <;> exact there
    | reverting path first =>
      have performed : x.store.perform (.get path true) = (store, reply) := Option.some.inj done
      obtain ⟨there, brings⟩ := h.perform_get fits.2.1 performed
      refine ⟨?_, fits.1, fits.2.1, brings⟩
      cases reply <;> exact there
    | _ => exact fits.elim
  | attempt k stage =>
    cases stage with
    | due => cases done
    | asking prompt => cases done
    | checking path =>
      have performed : x.store.perform (.get path false) = (store, reply) := Option.some.inj done
      have store_eq : x.store.countRead false = store := congrArg Prod.fst performed
      refine ⟨?_, fits⟩
      rw [← store_eq]
      exact h.kept
    | reverting path =>
      have performed : x.store.perform (.get path true) = (store, reply) := Option.some.inj done
      obtain ⟨there, brings⟩ := h.perform_get fits.2.1 performed
      refine ⟨?_, fits.1, fits.2.1, brings⟩
      cases reply <;> exact there
    | saving since path request =>
      have performed : x.store.perform (.save path request) = (store, reply) := Option.some.inj done
      have there := h.perform_save fits.2.2 fits.2.1 performed
      refine ⟨?_, fits⟩
      cases reply <;> exact there
  | operation c op => cases done
  | _ => exact fits.elim

theorem Versioned.carryOut {x : Exchange} (h : x.Versioned) (i : Nat) :
    (x.carryOut i).Versioned := by
  rcases carryOut_cases x i with same | ⟨t, store, reply, ht, -, done, next⟩
  · rwa [same]
  · rw [next]
    obtain ⟨⟨content, there, version⟩, fits⟩ :=
      Fits.carryOut h (h.threads t (List.mem_of_getElem? ht)) done
    have on : x.GoesOn (x.replied i t store reply) :=
      ⟨rfl, id, rfl, rfl, ⟨[], (List.append_nil _).symm⟩, fun _ owns => owns⟩
    refine ⟨h.made, h.kinds, h.held, ⟨content, there, version.goesOn on⟩, fun u hu => ?_⟩
    rcases List.mem_or_eq_of_mem_set hu with hu | rfl
    · exact (h.threads u hu).goesOn on
    · exact fits.goesOn on

end Exchange

/-! ## 6. A process goes on -/

/-- What becomes of its context when an operation goes on. -/
theorem Process.context_calling {s : Session} {c : ContextId} (made : c < s.contexts.length)
    (call : ContextCall) (reply : call.request.Reply) :
    ((Process.calling c call).resume s reply).1.context c =
      (ContextCall.resume (s.context c) call reply).1 := by
  simp only [Process.resume]
  split <;> (next h => rw [h]; exact Session.context_setContext _ made)

/-- What becomes of its context when an attempt goes on. -/
theorem Process.context_attempt {s : Session} {k : CoordinatorId}
    (made : (s.coordinator k).context < s.contexts.length) (a : Attempt) (answer : a.need.Answer) :
    ((Process.attempt k a).resume s answer).1.context (s.coordinator k).context =
      (Attempt.resume (s.scene k) a answer).1.context := by
  simp only [Process.resume]
  split <;> (next h => rw [h]; exact Session.context_setContext _ made)

/-- The end of an operation leaves the model as it is. -/
theorem ContextCall.model_conclude (first : Bool) (outcome : Context × Except ContextError Unit) :
    (conclude first outcome).1.model = outcome.1.model := by
  cases first with
  | false => rfl
  | true =>
    obtain ⟨state, events, same⟩ := outcome.1.settle_eq outcome.2
    rw [conclude, if_pos rfl, same]

namespace Exchange

/-- What fits is no call of the manager, and moves no context. -/
theorem Fits.isBystander {x : Exchange} {t : Thread} (fits : x.Fits t) :
    t.process.alters = false ∧ t.process.movesContext = false := by
  obtain ⟨process, r, n⟩ := t
  cases process with
  | operation c op =>
    rcases fits.2 with rfl | rfl
    · exact ⟨rfl, rfl⟩
    · exact ⟨rfl, rfl⟩
  | calling c call =>
    cases call with
    | saving path request first => exact ⟨rfl, rfl⟩
    | reverting path first => exact ⟨rfl, rfl⟩
    | _ => exact fits.elim
  | attempt k stage => exact ⟨rfl, rfl⟩
  | _ => exact fits.elim

/-- The outcome of a step for the model: a save leaves the value, and the model counts as
persisted; a reload brings the version that it carries, which counts as persisted; all else leaves
the model alone. -/
structure Brings (x : Exchange) (carries : Nat) (saved reloaded : Bool) (model : Model) : Prop where
  ofSaved : saved = true → model = x.context.model.setDirty false
  ofReloaded : reloaded = true →
    ∃ v readOnly, x.values[carries]? = some v ∧ model = ⟨v, false, readOnly⟩
  ofNeither : saved = false → reloaded = false → model = x.context.model

/-- What a save brings when it is answered. -/
theorem brings_afterSave {x : Exchange} (n : Nat) (c : Context) (same : c = x.context)
    (reply : Except StoreError Metadata) :
    x.Brings n (match reply with | .ok _ => true | .error _ => false) false
      (c.afterSave reply).1.model := by
  subst same
  cases reply with
  | ok m => exact ⟨fun _ => rfl, nofun, nofun⟩
  | error e => exact ⟨nofun, nofun, fun _ _ => rfl⟩

/-- What a reload brings when it is answered. -/
theorem brings_afterRevert {x : Exchange} {n : Nat} {c : Context} (same : c = x.context)
    (path : String) (reply : Except StoreError RemoteFile)
    (fits : ∀ file, reply = .ok file → ∃ content, file.content = some content ∧
      x.IsVersion n content) :
    x.Brings n false (match reply with | .ok _ => true | .error _ => false)
      (c.afterRevert path reply).1.model := by
  subst same
  cases reply with
  | error e => exact ⟨nofun, nofun, fun _ _ => rfl⟩
  | ok file =>
    obtain ⟨content, brings, v, version, loads⟩ := fits file rfl
    refine ⟨nofun, fun _ => ⟨v, !file.writable, version, ?_⟩, nofun⟩
    exact Context.model_afterRevert path brings loads

/-- **What a step does to the model.** -/
theorem Fits.brings {x : Exchange} (h : x.Versioned) {t : Thread} (fits : x.Fits t)
    {oracle : Oracle} {answer : t.process.need.Answer}
    (given : t.process.need.answer? oracle t.reply = some answer) :
    x.Brings t.carries (t.process.saved answer) (t.process.reloaded answer)
      ((t.process.resume x.session answer).1.context x.document).model := by
  obtain ⟨process, r, n⟩ := t
  cases process with
  | operation c op =>
    have unsaved : (Process.operation c op).saved answer = false := rfl
    have unloaded : (Process.operation c op).reloaded answer = false := rfl
    rw [unsaved, unloaded]
    refine ⟨nofun, nofun, fun _ _ => ?_⟩
    simp only [Process.resume]
    split <;> rfl
  | calling c call =>
    cases call with
    | saving path request first =>
      obtain ⟨rfl, -, -⟩ := fits
      rw [Process.context_calling h.made, ContextCall.resume, ContextCall.model_conclude]
      have brings := brings_afterSave n x.context rfl answer
      cases answer <;> exact brings
    | reverting path first =>
      obtain ⟨rfl, -, fits⟩ := fits
      rw [Process.context_calling h.made, ContextCall.resume, ContextCall.model_conclude]
      have replied : r = some answer := given
      have brings := brings_afterRevert rfl path answer fun file ok =>
        fits file (replied.trans (congrArg some ok))
      cases answer <;> exact brings
    | _ => exact fits.elim
  | attempt k stage =>
    have owns : x.Owns k := by cases stage <;> first | exact fits | exact fits.1
    have made : (x.session.coordinator k).context < x.session.contexts.length := by
      rw [owns.2]
      exact h.made
    have scene : (x.session.scene k).context = x.context := by
      rw [Exchange.context, ← owns.2]
      rfl
    rw [← owns.2, Process.context_attempt made]
    have alone :
        ∀ context : Context, context = x.context → x.Brings n false false context.model := by
      rintro context rfl
      exact ⟨nofun, nofun, fun _ _ => rfl⟩
    cases stage with
    | due => exact alone _ ((Attempt.context_resume_due _).trans scene)
    | checking path =>
      exact alone _ ((Attempt.context_resume_checking _ path answer).trans scene)
    | asking prompt => exact alone _ ((Attempt.context_resume_asking _ prompt answer).trans scene)
    | reverting path =>
      have replied : r = some answer := given
      have brings := brings_afterRevert scene path answer fun file ok =>
        fits.2.2 file (replied.trans (congrArg some ok))
      cases answer <;> exact brings
    | saving since path request =>
      have brings := brings_afterSave n _ scene answer
      cases answer <;> exact brings
  | _ => exact fits.elim

/-- **What goes on fits**, and carries the version that the model holds.  After a reload nothing
goes on. -/
theorem Fits.continues {x : Exchange} (h : x.Versioned) {t : Thread} (fits : x.Fits t)
    {answer : t.process.need.Answer} {next : Process}
    (hnext : (t.process.resume x.session answer).2 = .inl next) :
    t.process.reloaded answer = false ∧ x.Fits { process := next, carries := x.held } := by
  obtain ⟨process, r, n⟩ := t
  have current : x.IsVersion x.held x.context.saveRequest.content := h.isVersion_content h.held
  cases process with
  | operation c op =>
    obtain ⟨rfl, saveOrRevert⟩ := fits
    refine ⟨rfl, ?_⟩
    simp only [Process.resume, ContextOp.begin] at hnext
    cases live : (x.session.context x.document).requireLive with
    | error e => simp [live, Except.map] at hnext
    | ok u =>
      simp only [live, Except.map, Sum.inl.injEq] at hnext
      subst hnext
      rcases saveOrRevert with rfl | rfl
      · exact ⟨rfl, rfl, current⟩
      · exact ⟨rfl, rfl, fun file replied => by cases replied⟩
  | calling c call =>
    cases call with
    | saving path request first =>
      simp [Process.resume, ContextCall.resume, ContextCall.conclude] at hnext
    | reverting path first =>
      simp [Process.resume, ContextCall.resume, ContextCall.conclude] at hnext
    | _ => exact fits.elim
  | attempt k stage =>
    have owns : x.Owns k := by cases stage <;> first | exact fits | exact fits.1
    have scene : (x.session.scene k).context = x.context := by
      rw [Exchange.context, ← owns.2]
      rfl
    simp only [Process.resume] at hnext
    split at hnext
    · next a hr =>
      cases hnext
      have following := Attempt.next_resume _ stage answer a (by rw [hr])
      rw [scene] at following
      have notReloaded : (Process.attempt k stage).reloaded answer = false := by
        cases stage with
        | reverting path => cases hr
        | _ => rfl
      refine ⟨notReloaded, ?_⟩
      rcases following with ⟨path, rfl⟩ | ⟨prompt, rfl⟩ | rfl | rfl
      · exact owns
      · exact owns
      · exact ⟨owns, rfl, fun file replied => by cases replied⟩
      · exact ⟨owns, rfl, current⟩
    · cases hnext
  | _ => exact fits.elim

/-! ## 7. Runs -/

/-- The exchange after the process of a thread has gone on with an answer, with the threads that are
left. -/
def resumed (x : Exchange) (others : List Thread) (t : Thread) (answer : t.process.need.Answer) :
    Exchange :=
  { x with
    session := (t.process.resume x.session answer).1
    threads := others ++ (Ensemble.continuing (t.process.resume x.session answer).2).map fun p =>
      { process := p, carries := if t.process.reloaded answer then t.carries else x.held }
    held := if t.process.reloaded answer then t.carries else x.held }

/-- **What going on does**: nothing, or one of the processes takes its step. -/
theorem go_cases (x : Exchange) (i : Nat) (oracle : Oracle) :
    x.go i oracle = x ∨ ∃ (t : Thread) (answer : t.process.need.Answer), x.threads[i]? = some t ∧
      t.process.need.answer? oracle t.reply = some answer ∧
      x.go i oracle = x.resumed (x.threads.eraseIdx i) t answer := by
  unfold go
  split
  · exact Or.inl rfl
  · next t ht =>
    split
    · exact Or.inl rfl
    · next answer given => exact Or.inr ⟨t, answer, ht, given, rfl⟩

/-- What the model holds afterwards is a version: the one that was brought, or the one before. -/
theorem Brings.value {x : Exchange} (h : x.Versioned) {carries : Nat} {saved reloaded : Bool}
    {model : Model} (brings : x.Brings carries saved reloaded model) :
    x.values[if reloaded then carries else x.held]? = some model.value := by
  cases reloaded with
  | true =>
    obtain ⟨v, readOnly, version, rfl⟩ := brings.ofReloaded rfl
    exact version
  | false =>
    cases saved with
    | true =>
      rw [brings.ofSaved rfl]
      exact h.held
    | false =>
      rw [brings.ofNeither rfl rfl]
      exact h.held

/-- A process goes on, and the exchange with it. -/
theorem Fits.goesOn_resumed {x : Exchange} (h : x.Versioned) {t : Thread} (fits : x.Fits t)
    {oracle : Oracle} {answer : t.process.need.Answer}
    (given : t.process.need.answer? oracle t.reply = some answer) (others : List Thread) :
    x.GoesOn (x.resumed others t answer) := by
  obtain ⟨bystander, stays⟩ := fits.isBystander
  have narrows := Session.Narrows.process x.session t.process answer stays bystander
  have version := (fits.brings h given).value h
  exact {
    document := rfl
    made := fun made => Nat.lt_of_lt_of_le made narrows.contexts_length
    path := narrows.path _ h.made
    kind := h.kinds _ (List.mem_of_getElem? version)
    values := ⟨[], (List.append_nil _).symm⟩
    owns := fun k owns => owns.advances _ narrows.toAdvances rfl }

namespace Versioned

variable {x : Exchange}

/-- **A process goes on**: what it leaves is what it brings, and what it does next fits. -/
theorem go (h : x.Versioned) (i : Nat) (oracle : Oracle) : (x.go i oracle).Versioned := by
  rcases go_cases x i oracle with same | ⟨t, answer, ht, given, next⟩
  · rwa [same]
  rw [next]
  have fits := h.threads t (List.mem_of_getElem? ht)
  have on := fits.goesOn_resumed h given (x.threads.eraseIdx i)
  obtain ⟨content, there, kept⟩ := h.kept
  refine ⟨on.made h.made, fun v hv => ?_, (fits.brings h given).value h, ⟨content, ?_, ?_⟩,
    fun u hu => ?_⟩
  · rw [on.kind]
    exact h.kinds v hv
  · rw [on.path]
    exact there
  · exact kept.goesOn on
  · rcases List.mem_append.mp hu with hu | hu
    · exact (h.threads u (List.mem_of_mem_eraseIdx hu)).goesOn on
    · obtain ⟨p, hp, rfl⟩ := List.mem_map.mp hu
      cases following : (t.process.resume x.session answer).2 with
      | inr outcome =>
        rw [following] at hp
        cases hp
      | inl p' =>
        rw [following] at hp
        obtain rfl := List.mem_singleton.mp hp
        obtain ⟨notReloaded, continues⟩ := fits.continues h following
        rw [notReloaded]
        exact continues.goesOn on

/-- What else the host does keeps the invariant. -/
theorem deed (h : x.Versioned) {d : Deed} (spares : sparesDocuments d = true) :
    Versioned { x with session := d.apply x.session } := by
  have stays : d.movesContext = false := by
    cases d with
    | followMove c target => cases spares
    | _ => rfl
  have narrows := Session.Narrows.deed x.session d stays
  exact h.of_session narrows.toAdvances (narrows.path _ h.made)
    (Session.model_deed h.made spares)

/-- **Every move keeps the invariant.** -/
theorem step (h : x.Versioned) : (m : Move) → (x.step m).Versioned
  | .edit value => by
    simp only [Exchange.step]
    split
    · next kind => exact h.edit kind
    · exact h
  | .save => h.enter ⟨rfl, Or.inl rfl⟩
  | .revert => h.enter ⟨rfl, Or.inr rfl⟩
  | .attempt k => by
    simp only [Exchange.step]
    split
    · next owns => exact h.enter owns
    · exact h
  | .deed d => by
    simp only [Exchange.step]
    split
    · next spares => exact h.deed spares
    · exact h
  | .conditions _ _ _ => h.of_store rfl
  | .setWritable writable =>
    h.of_store (MemoryStore.content?_setWritable x.store x.context.path writable x.context.path)
  | .carryOut i => h.carryOut i
  | .go i oracle => h.go i oracle

/-- **Every run keeps the invariant.** -/
theorem run (h : x.Versioned) (moves : List Move) : (x.run moves).Versioned := by
  induction moves generalizing x with
  | nil => exact h
  | cons m moves ih => exact ih (h.step m)

/-- A document that is in sync starts with the invariant. -/
theorem start {session : Session} {store : MemoryStore} {document : ContextId}
    (made : document < session.contexts.length)
    (inSync : (Exchange.start session store document).InSync) :
    (Exchange.start session store document).Versioned := by
  rw [InSync, fresh?_eq] at inSync
  obtain ⟨content, there, loaded⟩ := Option.bind_eq_some_iff.mp inSync
  refine ⟨made, fun v hv => ?_, rfl, ⟨content, there, _, rfl, ?_⟩,
    fun _ ht => absurd ht List.not_mem_nil⟩
  · rw [List.mem_singleton.mp hv]
    rfl
  · generalize (Exchange.start session store document).value.kind.load content = outcome at loaded ⊢
    cases outcome with
    | error e => cases loaded
    | ok v => exact congrArg Except.ok (Option.some.inj loaded)

end Versioned

end Exchange

end Folio
