/-
# What bystanders leave alone

A process that neither holds the contexts exclusively nor is about to get them so is a bystander.
However it goes on, the books of the manager stay as they are: which contexts and widgets are in
use, and what the host was told about widgets.  A context can only evolve: its model factory stays,
what is closed stays closed, and what has failed stays failed unless it is closed.  The coordinator
of a closed context does not become active again.

`Session.LeavesBooks` says this of two sessions, and `Session.LeavesBooks.process` proves it for
every step of a bystander.  A bystander that is a call of the manager does not touch contexts at all
(`Session.LeavesContexts`).
-/
import Folio.Proofs.Ensemble.Basic
import Folio.Proofs.Session.Steps

namespace Folio

/-! ## 1. How a context evolves -/

/-- **A context evolves**: no operation undoes these. -/
structure Context.Evolves (c d : Context) : Prop where
  modelFactory : d.modelFactory = c.modelFactory
  disposed : c.isDisposed = true → d.isDisposed = true
  failed : c.hasFailed = true → d.hasFailed = true ∨ d.isDisposed = true

namespace Context.Evolves

theorem refl (c : Context) : c.Evolves c := ⟨rfl, id, Or.inl⟩

theorem trans {c d e : Context} (h : c.Evolves d) (h' : d.Evolves e) : c.Evolves e where
  modelFactory := h'.modelFactory.trans h.modelFactory
  disposed hc := h'.disposed (h.disposed hc)
  failed hc := by
    rcases h.failed hc with hd | hd
    · exact h'.failed hd
    · exact Or.inr (h'.disposed hd)

/-- Whatever keeps the factory and the phase is an evolution. -/
theorem of_eq {c d : Context} (factory : d.modelFactory = c.modelFactory)
    (state : d.state = c.state) : c.Evolves d where
  modelFactory := factory
  disposed hc := by rwa [isDisposed, state]
  failed hc := by rw [hasFailed, state]; exact Or.inl hc

theorem dispose (c : Context) : c.Evolves c.dispose where
  modelFactory := by unfold Context.dispose; split <;> rfl
  disposed _ := c.isDisposed_dispose
  failed _ := Or.inr c.isDisposed_dispose

theorem settle (c : Context) (result : Except ContextError Unit) : c.Evolves (c.settle result) := by
  rcases c.settle_cases result with same | ⟨loading, -, same⟩ | ⟨loading, e, same⟩
  · rw [same]
    exact .refl c
  · constructor <;> simp_all [Context.emit, Context.isDisposed, Context.hasFailed]
  · constructor <;> simp_all [Context.isDisposed, Context.hasFailed]

theorem followMove (c : Context) (target : String) : c.Evolves (c.followMove target) := by
  unfold Context.followMove
  split
  · exact .refl c
  · exact .of_eq rfl rfl

theorem afterSave (c : Context) (reply : Except StoreError Metadata) :
    c.Evolves (c.afterSave reply).1 := by
  cases reply with
  | error e => exact .refl c
  | ok m => exact .of_eq rfl rfl

theorem afterRevert (c : Context) (path : String) (reply : Except StoreError RemoteFile) :
    c.Evolves (c.afterRevert path reply).1 := by
  rcases c.afterRevert_cases path reply with ⟨e, failed⟩ | ⟨file, model, -, done⟩
  · rw [failed]
    exact .refl c
  · rw [done]
    exact .of_eq rfl rfl

theorem afterRename (c : Context) (target : String) (reply : Except StoreError Metadata) :
    c.Evolves (c.afterRename target reply).1 := by
  cases reply with
  | error e => exact .refl c
  | ok m => exact (followMove c target).trans (.of_eq rfl rfl)

theorem conclude {c d : Context} (first : Bool) {result : Except ContextError Unit}
    (h : c.Evolves d) : c.Evolves (ContextCall.conclude first (d, result)).1 := by
  unfold ContextCall.conclude
  cases first with
  | false => exact h
  | true => exact h.trans (settle d result)

/-- **Every operation lets its context evolve.** -/
theorem resume (c : Context) : (call : ContextCall) → (reply : call.request.Reply) →
    c.Evolves (ContextCall.resume c call reply).1
  | .saving _ _ first, reply => conclude first (afterSave c reply)
  | .reverting path first, reply => conclude first (afterRevert c path reply)
  | .fetching _, _ => .refl c
  | .renaming _ target, reply => conclude false (afterRename c target reply)
  | .checkpointing _, _ => .refl c
  | .listing _, _ => .refl c
  | .restoring _ _, .error _ => .refl c
  | .restoring _ _, .ok () => by
    simp only [ContextCall.resume]
    split <;> exact .refl c

end Context.Evolves

/-! ## 2. What coordinators keep -/

namespace Coordinator

theorem context_setInterval (k : Coordinator) (interval : Duration) :
    (k.setInterval interval).context = k.context := by
  simp only [setInterval]
  split <;> rfl

theorem active_setInterval (k : Coordinator) (interval : Duration) :
    (k.setInterval interval).active = k.active := by
  simp only [setInterval]
  split <;> rfl

theorem context_recalibrate (k : Coordinator) (saveTook : Duration) :
    (k.recalibrate saveTook).context = k.context := by
  simp only [recalibrate]
  split <;> rfl

theorem active_recalibrate (k : Coordinator) (saveTook : Duration) :
    (k.recalibrate saveTook).active = k.active := by
  simp only [recalibrate]
  split <;> rfl

/-- A coordinator that becomes active had a context that was not closed. -/
theorem of_start_eq_some {k new : Coordinator} {closed : Bool} {number : Nat}
    (h : k.start closed = (new, some number)) : closed = false ∧ new.context = k.context := by
  unfold start at h
  split at h
  · cases h
  · next hc =>
    cases h
    simp only [Bool.or_eq_true, not_or, Bool.not_eq_true] at hc
    exact ⟨hc.1, rfl⟩

end Coordinator

/-! ## 3. Sessions with the same books -/

namespace Session

/-- What relates a session to the next, for one of a list after the other, relates the first to the
last. -/
theorem foldl_related {α : Type} {R : Session → Session → Prop} (refl : ∀ s, R s s)
    (trans : ∀ {s t u : Session}, R s t → R t u → R s u) {f : Session → α → Session}
    (h : ∀ (s : Session) (a : α), R s (f s a)) (l : List α) (s : Session) :
    R s (l.foldl f s) := by
  induction l generalizing s with
  | nil => exact refl s
  | cons a l ih => exact trans (h s a) (ih (f s a))

/-- **The books of the manager stay as they are**, and contexts and coordinators only evolve. -/
structure LeavesBooks (s t : Session) : Prop where
  tracked : t.manager.tracked = s.manager.tracked
  bindings : t.manager.bindings = s.manager.bindings
  widgets : t.widgets = s.widgets
  lifecycle : t.lifecycle = s.lifecycle
  contexts_length : t.contexts.length = s.contexts.length
  context : ∀ c < s.contexts.length, (s.context c).Evolves (t.context c)
  coordinators_length : t.coordinators.length = s.coordinators.length
  coordinator : ∀ k < s.coordinators.length,
    (t.coordinator k).context = (s.coordinator k).context
  inactive : ∀ k < s.coordinators.length, (s.coordinator k).context < s.contexts.length →
    (s.context (s.coordinator k).context).isDisposed = true →
    (s.coordinator k).active = false → (t.coordinator k).active = false

namespace LeavesBooks

/-- Whatever keeps the lists leaves the books alone. -/
theorem of_eq {s t : Session} (tracked : t.manager.tracked = s.manager.tracked)
    (bindings : t.manager.bindings = s.manager.bindings) (widgets : t.widgets = s.widgets)
    (lifecycle : t.lifecycle = s.lifecycle) (contexts : t.contexts = s.contexts)
    (coordinators : t.coordinators = s.coordinators) : s.LeavesBooks t where
  tracked := tracked
  bindings := bindings
  widgets := widgets
  lifecycle := lifecycle
  contexts_length := by rw [contexts]
  context c _ := by
    have h : t.context c = s.context c := by rw [Session.context, contexts, Session.context]
    rw [h]
    exact .refl _
  coordinators_length := by rw [coordinators]
  coordinator k _ := by rw [Session.coordinator, coordinators, Session.coordinator]
  inactive k _ _ _ h := by rwa [Session.coordinator, coordinators]

theorem refl (s : Session) : s.LeavesBooks s := of_eq rfl rfl rfl rfl rfl rfl

theorem trans {s t u : Session} (h : s.LeavesBooks t) (h' : t.LeavesBooks u) :
    s.LeavesBooks u where
  tracked := h'.tracked.trans h.tracked
  bindings := h'.bindings.trans h.bindings
  widgets := h'.widgets.trans h.widgets
  lifecycle := h'.lifecycle.trans h.lifecycle
  contexts_length := h'.contexts_length.trans h.contexts_length
  context c hc := (h.context c hc).trans (h'.context c (by rwa [h.contexts_length]))
  coordinators_length := h'.coordinators_length.trans h.coordinators_length
  coordinator k hk :=
    (h'.coordinator k (by rwa [h.coordinators_length])).trans (h.coordinator k hk)
  inactive k hk hc closed idle := by
    have same : (t.coordinator k).context = (s.coordinator k).context := h.coordinator k hk
    refine h'.inactive k (by rwa [h.coordinators_length]) ?_ ?_ (h.inactive k hk hc closed idle)
    · rwa [same, h.contexts_length]
    · rw [same]
      exact (h.context _ hc).disposed closed

/-- Starting background work. -/
theorem start (s : Session) (work : Background) : s.LeavesBooks (s.start work) :=
  of_eq rfl rfl rfl rfl rfl rfl

/-- Replacing a context by one that it can evolve into. -/
theorem setContext {s : Session} {c : ContextId} {context : Context}
    (h : (s.context c).Evolves context) : s.LeavesBooks (s.setContext c context) where
  tracked := rfl
  bindings := rfl
  widgets := rfl
  lifecycle := rfl
  contexts_length := by simp [Session.setContext]
  context d hd := by
    by_cases hdc : d = c
    · subst hdc
      rwa [context_setContext context hd]
    · rw [context_setContext_of_ne context hdc]
      exact .refl _
  coordinators_length := rfl
  coordinator _ _ := rfl
  inactive _ _ _ _ idle := idle

/-- Replacing a coordinator by one of the same context, which is not made active if the context is
closed. -/
theorem setCoordinator {s : Session} {k : CoordinatorId} {coordinator : Coordinator}
    (same : coordinator.context = (s.coordinator k).context)
    (idle : (s.context (s.coordinator k).context).isDisposed = true →
      (s.coordinator k).active = false → coordinator.active = false) :
    s.LeavesBooks (s.setCoordinator k coordinator) where
  tracked := rfl
  bindings := rfl
  widgets := rfl
  lifecycle := rfl
  contexts_length := rfl
  context c _ := .refl _
  coordinators_length := by simp [Session.setCoordinator]
  coordinator j hj := by
    by_cases hjk : j = k
    · subst hjk
      rwa [coordinator_setCoordinator coordinator hj]
    · rw [coordinator_setCoordinator_of_ne coordinator hjk]
  inactive j hj _ closed h := by
    by_cases hjk : j = k
    · subst hjk
      rw [coordinator_setCoordinator coordinator hj]
      exact idle closed h
    · rwa [coordinator_setCoordinator_of_ne coordinator hjk]

/-- Changing a coordinator in a way that does not touch its context or make it active. -/
theorem modifyCoordinator {s : Session} {k : CoordinatorId} {coordinator : Coordinator}
    (same : coordinator.context = (s.coordinator k).context)
    (idle : (s.coordinator k).active = false → coordinator.active = false) :
    s.LeavesBooks (s.setCoordinator k coordinator) :=
  setCoordinator same fun _ => idle

theorem startCoordinator (s : Session) (k : CoordinatorId) :
    s.LeavesBooks (s.startCoordinator k) := by
  unfold Session.startCoordinator
  simp only
  split
  · exact refl s
  · next new number h =>
    obtain ⟨live, same⟩ := Coordinator.of_start_eq_some h
    refine trans (setCoordinator same fun closed _ => ?_) (start _ _)
    rw [live] at closed
    exact absurd closed Bool.false_ne_true

theorem stopCoordinator (s : Session) (k : CoordinatorId) :
    s.LeavesBooks (s.stopCoordinator k) := modifyCoordinator rfl fun _ => rfl

theorem setCoordinatorInterval (s : Session) (k : CoordinatorId) (interval : Duration) :
    s.LeavesBooks (s.setCoordinatorInterval k interval) :=
  modifyCoordinator (Coordinator.context_setInterval _ _) fun idle =>
    (Coordinator.active_setInterval _ _).trans idle

end LeavesBooks

/-- **The books stay as they are, and so do all contexts.** -/
structure LeavesContexts (s t : Session) : Prop extends s.LeavesBooks t where
  contexts : t.contexts = s.contexts

@[simp] theorem contexts_startCoordinator (s : Session) (k : CoordinatorId) :
    (s.startCoordinator k).contexts = s.contexts := by
  simp only [startCoordinator]
  split <;> rfl

theorem context_startCoordinator (s : Session) (k : CoordinatorId) (c : ContextId) :
    (s.startCoordinator k).context c = s.context c := by
  rw [context, contexts_startCoordinator, context]

namespace LeavesContexts

theorem refl (s : Session) : s.LeavesContexts s := ⟨.refl s, rfl⟩

theorem trans {s t u : Session} (h : s.LeavesContexts t) (h' : t.LeavesContexts u) :
    s.LeavesContexts u where
  toLeavesBooks := h.toLeavesBooks.trans h'.toLeavesBooks
  contexts := h'.contexts.trans h.contexts

theorem startCoordinator (s : Session) (k : CoordinatorId) :
    s.LeavesContexts (s.startCoordinator k) :=
  ⟨.startCoordinator s k, contexts_startCoordinator s k⟩

theorem stopCoordinator (s : Session) (k : CoordinatorId) :
    s.LeavesContexts (s.stopCoordinator k) := ⟨.stopCoordinator s k, rfl⟩

theorem setCoordinatorInterval (s : Session) (k : CoordinatorId) (interval : Duration) :
    s.LeavesContexts (s.setCoordinatorInterval k interval) :=
  ⟨.setCoordinatorInterval s k interval, rfl⟩

end LeavesContexts

end Session

/-! ## 4. Attempts to save -/

/-- **What an attempt leaves alone** of what it acts on. -/
structure Attempt.Scene.Evolves (s t : Attempt.Scene) : Prop where
  context : s.context.Evolves t.context
  owner : t.coordinator.context = s.coordinator.context
  active : t.coordinator.active = s.coordinator.active

namespace Attempt.Scene.Evolves

theorem refl (s : Attempt.Scene) : s.Evolves s := ⟨.refl _, rfl, rfl⟩

theorem beginSave (s : Attempt.Scene) : s.Evolves (Attempt.beginSave s).1 := by
  unfold Attempt.beginSave
  split <;> exact refl s

theorem begin (s : Attempt.Scene) : s.Evolves (Attempt.begin s).1 := by
  unfold Attempt.begin
  simp only
  split
  · exact refl s
  · split
    · exact beginSave s
    · exact refl s

theorem afterCheck (s : Attempt.Scene) (reply : Except StoreError RemoteFile) :
    s.Evolves (Attempt.afterCheck s reply).1 := by
  unfold Attempt.afterCheck
  split
  · exact beginSave s
  · simp only
    split
    · exact beginSave s
    · split
      · exact refl s
      · exact ⟨.refl _, rfl, rfl⟩

theorem afterAnswer (s : Attempt.Scene) (answer : Resolution) :
    s.Evolves (Attempt.afterAnswer s answer).1 := by
  have released : s.Evolves { s with coordinator := s.coordinator.closeConflict } :=
    ⟨.refl _, rfl, rfl⟩
  cases answer with
  | cancel => exact released
  | revert =>
    simp only [Attempt.afterAnswer]
    split
    · exact released
    · exact refl s
  | overwrite =>
    have saved := beginSave { s with coordinator := s.coordinator.closeConflict }
    exact ⟨saved.context, saved.owner, saved.active⟩

theorem afterSave (s : Attempt.Scene) (since : Nat) (reply : Except StoreError Metadata) :
    s.Evolves (Attempt.afterSave s since reply) := by
  cases reply with
  | error e => exact refl s
  | ok m =>
    exact ⟨Context.Evolves.afterSave s.context (.ok m), Coordinator.context_recalibrate _ _,
      Coordinator.active_recalibrate _ _⟩

/-- **However an attempt goes on**, its context evolves and its coordinator stays as active as it
was. -/
theorem resume (s : Attempt.Scene) : (a : Attempt) → (answer : a.need.Answer) →
    s.Evolves (Attempt.resume s a answer).1
  | .due, () => begin s
  | .checking _, reply => afterCheck s reply
  | .asking _, answer => afterAnswer s answer
  | .reverting path, reply => ⟨Context.Evolves.afterRevert s.context path reply, rfl, rfl⟩
  | .saving since _ _, reply => afterSave s since reply

end Attempt.Scene.Evolves

/-! ## 5. Bystanders -/

/-- The stage holds the contexts exclusively. -/
def Stage.owns (stage : Stage) : Bool := stage.holds.contains (.contexts, .exclusive)

/-- The stage holds the contexts exclusively, or gets them so by going on. -/
def Stage.alters : Stage → Bool
  | .updating _ => true
  | stage => stage.owns

/-- The process is at such a stage; all others are bystanders. -/
def Process.alters : Process → Bool
  | .manager stage => stage.alters
  | _ => false

/-- The deed makes nothing and disposes no widget. -/
def Deed.isBystander : Deed → Bool
  | .disposeWidget _ => false
  | .newContext _ _ _ _ => false
  | .newCoordinator _ _ => false
  | _ => true

namespace Session.LeavesContexts

theorem switchAutosave (enabled : Bool) (s : Session) (t : Tracked) :
    s.LeavesContexts (Manager.switchAutosave enabled s t) := by
  unfold Manager.switchAutosave
  split
  · exact stopCoordinator s t.coordinator
  · split
    · exact startCoordinator s t.coordinator
    · exact refl s

theorem begin (s : Session) (op : ManagerOp) : s.LeavesContexts (Manager.begin s op).1 := by
  cases op
  case setAutosave enabled => exact ⟨.of_eq rfl rfl rfl rfl rfl rfl, rfl⟩
  case setInterval interval => exact ⟨.of_eq rfl rfl rfl rfl rfl rfl, rfl⟩
  all_goals first
    | exact refl s
    | (simp only [Manager.begin]; split <;> exact refl s)

theorem read (s : Session) (query : ContextQuery) :
    s.LeavesContexts (Manager.read s query).1 := by
  cases query with
  | openContexts => exact refl s
  | autosaveFor c => exact refl s
  | setAutosave enabled =>
    exact foldl_related refl trans (switchAutosave enabled) s.manager.tracked s
  | setInterval interval =>
    exact foldl_related refl trans
      (fun s (t : Tracked) => setCoordinatorInterval s t.coordinator interval) s.manager.tracked s

theorem notFound (s : Session) (otherwise : Option Wanted) :
    s.LeavesContexts (Manager.notFound s otherwise).1 := by
  cases otherwise <;> exact refl s

/-- **A stage that does not alter the books** leaves them alone, and all contexts. -/
theorem stage (s : Session) (stage : Stage) (answer : stage.need.Answer)
    (bystander : stage.alters = false) : s.LeavesContexts (stage.resume s answer).1 := by
  cases stage with
  | called op =>
    simp only [Stage.resume]
    split
    · cases op <;> exact refl s
    · exact begin s op
  | reading query => exact read s query
  | finding path widget model otherwise =>
    simp only [Stage.resume]
    split
    · exact refl s
    · exact notFound s otherwise
  | searching context widget otherwise =>
    simp only [Stage.resume]
    split
    · exact refl s
    · exact notFound s otherwise
  | readingBindings query => cases query <;> exact refl s
  | confirming widget =>
    simp only [Stage.resume]
    split <;> exact refl s
  | deleting path => cases answer <;> exact refl s
  | _ => cases bystander

end Session.LeavesContexts

namespace Session.LeavesBooks

/-- Putting back what an attempt has acted on. -/
theorem setScene {s : Session} {k : CoordinatorId} {scene : Attempt.Scene}
    (h : (s.scene k).Evolves scene) : s.LeavesBooks (s.setScene k scene) := by
  refine trans (setContext (c := (s.coordinator k).context) h.context) ?_
  exact modifyCoordinator h.owner fun idle => h.active.trans idle

/-- **A bystander leaves the books alone**, whatever it gets. -/
theorem process (s : Session) (p : Process) (answer : p.need.Answer)
    (bystander : p.alters = false) : s.LeavesBooks (p.resume s answer).1 := by
  by_cases conducts : ∃ stage, p = .manager stage
  · obtain ⟨stage, rfl⟩ := conducts
    have leaves := LeavesContexts.stage s stage answer bystander
    simp only [Process.resume]
    split <;> (next h => rw [h] at leaves; exact leaves.toLeavesBooks)
  · have makes := p.makes s answer (not_exists.mp conducts)
    generalize (p.resume s answer).1 = t at makes ⊢
    cases makes with
    | nothing => exact refl s
    | called c call reply => exact setContext (.resume _ call reply)
    | loads k call reply => exact setContext (.resume _ call reply)
    | starts k call reply =>
      exact trans (setContext (.resume _ call reply)) (startCoordinator _ k)
    | fires => exact start s _
    | reschedules => exact modifyCoordinator rfl id
    | ends => exact modifyCoordinator rfl fun _ => rfl
    | acts k a given => exact setScene (.resume _ a given)

/-- What the host does by itself leaves the books alone, unless it makes something or disposes a
widget. -/
theorem deed (s : Session) : (d : Deed) → d.isBystander = true → s.LeavesBooks (d.apply s)
  | .setRegistry _, _ => of_eq rfl rfl rfl rfl rfl rfl
  | .setClock _, _ => of_eq rfl rfl rfl rfl rfl rfl
  | .setModel _ _, _ => setContext (.of_eq rfl rfl)
  | .followMove _ target, _ => setContext (.followMove _ target)
  | .disposeContext _, _ => setContext (.dispose _)
  | .startCoordinator k, _ => startCoordinator s k
  | .stopCoordinator k, _ => stopCoordinator s k
  | .setInterval k interval, _ => setCoordinatorInterval s k interval

end Session.LeavesBooks

end Folio
