/-
# Nothing comes back

A context or a coordinator that was made is never unmade, and some of what happens to it is final.
However a session goes on, by a process or by what the host does, a context only evolves, a
coordinator stays with its context, and the coordinator of a closed context does not become active
again (`Session.Advances`).

So what is dead, a closed context whose coordinator is inactive, is dead for ever: `Ensemble.run`
keeps it whatever the moves are.  Nothing is assumed about them here.
-/
import Folio.Proofs.Ensemble.Bystander
import Folio.Proofs.Session.Edits

namespace Folio

/-- Taking contexts out of use keeps those that do not pass the test. -/
theorem Manager.retireWhere_eq (s : Session) (test : Tracked → Bool) (after : AfterClosing) :
    Manager.retireWhere s test after =
      Manager.retireEach (s.setTracked (s.manager.tracked.filter fun t => !test t))
        (s.manager.tracked.filter test) after := by
  simp only [Manager.retireWhere, List.partition_eq_filter_filter]
  rfl

/-- What replacing a context does not touch, following a move does not touch. -/
theorem Manager.followAll_keeps {α : Type} (f : Session → α)
    (h : ∀ (s : Session) (c : ContextId) (context : Context), f (s.setContext c context) = f s)
    (s : Session) (source target : String) : f (Manager.followAll s source target) = f s := by
  refine Session.foldl_related (R := fun s t => f t = f s) (fun _ => rfl)
    (fun h h' => h'.trans h) (fun s (t : Tracked) => ?_) s.manager.tracked s
  split
  · exact h s _ _
  · rfl

/-- Contexts that follow a file leave what the manager keeps. -/
theorem Manager.manager_followAll (s : Session) (source target : String) :
    (Manager.followAll s source target).manager = s.manager :=
  followAll_keeps (·.manager) (fun _ _ _ => rfl) s source target

/-- What the host does by itself leaves alone what the manager keeps. -/
theorem Deed.manager_apply (s : Session) (d : Deed) : (d.apply s).manager = s.manager := by
  cases d with
  | startCoordinator k => exact Session.manager_startCoordinator s k
  | disposeWidget w => cases w <;> rfl
  | _ => rfl

namespace Session

/-- Takes the widgets of a context out of use and retires them: the first half of closing it. -/
def withdraw (s : Session) (c : ContextId) : Session :=
  (s.manager.bindings.filter (·.context == c)).foldl (fun s b => s.retireWidget b.widget)
    (s.setBindings (s.manager.bindings.filter (·.context != c)))

/-- Widgets that are withdrawn go out of use, and nothing else does. -/
theorem manager_withdraw (s : Session) (c : ContextId) :
    (s.withdraw c).manager =
      { s.manager with bindings := s.manager.bindings.filter (·.context != c) } := by
  have same := foldl_related (R := fun s t => t.manager = s.manager) (fun _ => rfl)
    (fun h h' => h'.trans h)
    (fun (s : Session) (b : Binding) =>
      show (s.retireWidget b.widget).manager = s.manager by cases b.widget <;> rfl)
    (s.manager.bindings.filter (·.context == c))
    (s.setBindings (s.manager.bindings.filter (·.context != c)))
  exact same

/-- Closing a context withdraws its widgets, stops its coordinator and disposes it. -/
theorem retireContext_eq (s : Session) (t : Tracked) :
    s.retireContext t =
      ((s.withdraw t.context).stopCoordinator t.coordinator).setContext t.context
        (((s.withdraw t.context).stopCoordinator t.coordinator).context t.context).dispose := by
  simp only [retireContext, withdraw, List.partition_eq_filter_filter]
  rfl

theorem manager_retireContext (s : Session) (t : Tracked) :
    (s.retireContext t).manager =
      { s.manager with bindings := s.manager.bindings.filter (·.context != t.context) } := by
  rw [retireContext_eq]
  exact manager_withdraw s t.context

/-- Widgets that go out of use take no context with them. -/
theorem contexts_withdraw (s : Session) (c : ContextId) : (s.withdraw c).contexts = s.contexts :=
  foldl_related (R := fun s t => t.contexts = s.contexts) (fun _ => rfl)
    (fun h h' => h'.trans h)
    (fun (s : Session) (b : Binding) =>
      show (s.retireWidget b.widget).contexts = s.contexts by cases b.widget <;> rfl)
    (s.manager.bindings.filter (·.context == c))
    (s.setBindings (s.manager.bindings.filter (·.context != c)))

/-- Closing a context leaves the others as they are. -/
theorem context_retireContext_of_ne {s : Session} {t : Tracked} {c : ContextId}
    (h : c ≠ t.context) : (s.retireContext t).context c = s.context c := by
  have same : ((s.withdraw t.context).stopCoordinator t.coordinator).contexts = s.contexts :=
    contexts_withdraw s t.context
  rw [retireContext_eq, context_setContext_of_ne _ h, context, same, context]

theorem contexts_length_retireContext (s : Session) (t : Tracked) :
    (s.retireContext t).contexts.length = s.contexts.length := by
  rw [retireContext_eq]
  exact List.length_set.trans (congrArg List.length (contexts_withdraw s t.context))

/-! ## 1. A session advances -/

/-- **A session advances** to another: what was made is still there and only evolves. -/
structure Advances (s t : Session) : Prop where
  contexts_length : s.contexts.length ≤ t.contexts.length
  context : ∀ c < s.contexts.length, (s.context c).Evolves (t.context c)
  coordinators_length : s.coordinators.length ≤ t.coordinators.length
  coordinator : ∀ k < s.coordinators.length,
    (t.coordinator k).context = (s.coordinator k).context
  inactive : ∀ k < s.coordinators.length, (s.coordinator k).context < s.contexts.length →
    (s.context (s.coordinator k).context).isDisposed = true →
    (s.coordinator k).active = false → (t.coordinator k).active = false

/-- A session whose books stay as they are advances. -/
theorem LeavesBooks.advances {s t : Session} (h : s.LeavesBooks t) : s.Advances t where
  contexts_length := Nat.le_of_eq h.contexts_length.symm
  context := h.context
  coordinators_length := Nat.le_of_eq h.coordinators_length.symm
  coordinator := h.coordinator
  inactive := h.inactive

namespace Advances

/-- Whatever keeps the contexts and the coordinators. -/
theorem of_eq {s t : Session} (contexts : t.contexts = s.contexts)
    (coordinators : t.coordinators = s.coordinators) : s.Advances t where
  contexts_length := Nat.le_of_eq (congrArg List.length contexts.symm)
  context c _ := by
    have h : t.context c = s.context c := by rw [Session.context, contexts, Session.context]
    rw [h]
    exact .refl _
  coordinators_length := Nat.le_of_eq (congrArg List.length coordinators.symm)
  coordinator k _ := by rw [Session.coordinator, coordinators, Session.coordinator]
  inactive k _ _ _ h := by rwa [Session.coordinator, coordinators]

theorem refl (s : Session) : s.Advances s := of_eq rfl rfl

theorem trans {s t u : Session} (h : s.Advances t) (h' : t.Advances u) : s.Advances u where
  contexts_length := Nat.le_trans h.contexts_length h'.contexts_length
  context c hc := (h.context c hc).trans (h'.context c (Nat.lt_of_lt_of_le hc h.contexts_length))
  coordinators_length := Nat.le_trans h.coordinators_length h'.coordinators_length
  coordinator k hk :=
    (h'.coordinator k (Nat.lt_of_lt_of_le hk h.coordinators_length)).trans (h.coordinator k hk)
  inactive k hk hc closed idle := by
    have same : (t.coordinator k).context = (s.coordinator k).context := h.coordinator k hk
    refine h'.inactive k (Nat.lt_of_lt_of_le hk h.coordinators_length) ?_ ?_
      (h.inactive k hk hc closed idle)
    · rw [same]
      exact Nat.lt_of_lt_of_le hc h.contexts_length
    · rw [same]
      exact (h.context _ hc).disposed closed

/-- Adding a context. -/
theorem addContext (s : Session) (context : Context) : s.Advances (s.addContext context).1 where
  contexts_length := by simp [Session.addContext]
  context c hc := by
    rw [context_addContext_of_lt context hc]
    exact .refl _
  coordinators_length := Nat.le_refl _
  coordinator _ _ := rfl
  inactive _ _ _ _ idle := idle

/-- Adding a coordinator. -/
theorem addCoordinator (s : Session) (coordinator : Coordinator) :
    s.Advances (s.addCoordinator coordinator).1 where
  contexts_length := Nat.le_refl _
  context c _ := .refl _
  coordinators_length := by simp [Session.addCoordinator]
  coordinator k hk := by rw [coordinator_addCoordinator_of_lt coordinator hk]
  inactive k hk _ _ idle := by rwa [coordinator_addCoordinator_of_lt coordinator hk]

theorem newTracked (s : Session) (path : String) (factory : ModelFactory) (isNew : Bool) :
    s.Advances (s.newTracked path factory isNew).1 :=
  ((addContext s _).trans (addCoordinator _ _)).trans (of_eq rfl rfl)

theorem setTracked (s : Session) (tracked : List Tracked) : s.Advances (s.setTracked tracked) :=
  of_eq rfl rfl

theorem setBindings (s : Session) (bindings : List Binding) :
    s.Advances (s.setBindings bindings) := of_eq rfl rfl

theorem disposeWidget (s : Session) (w : WidgetId) : s.Advances (s.disposeWidget w) := by
  cases w <;> exact of_eq rfl rfl

theorem retireWidget (s : Session) (w : WidgetId) : s.Advances (s.retireWidget w) :=
  (disposeWidget s w).trans (of_eq rfl rfl)

theorem withdraw (s : Session) (c : ContextId) : s.Advances (s.withdraw c) :=
  (setBindings s _).trans
    (foldl_related refl trans (fun s (b : Binding) => retireWidget s b.widget) _ _)

/-- **Closing a context.** -/
theorem retireContext (s : Session) (t : Tracked) : s.Advances (s.retireContext t) := by
  rw [retireContext_eq]
  have stopped :=
    (withdraw s t.context).trans (LeavesBooks.stopCoordinator _ t.coordinator).advances
  exact stopped.trans (LeavesBooks.setContext (.dispose _)).advances

/-! ## 2. The manager -/

theorem followAll (s : Session) (source target : String) :
    s.Advances (Manager.followAll s source target) := by
  refine foldl_related refl trans (fun s t => ?_) _ _
  split
  · exact (LeavesBooks.setContext (.followMove _ target)).advances
  · exact refl s

/-- Whatever a call of the manager does in a step, it does by edits. -/
theorem of_edit {s t : Session} (edit : s.Edit t) : s.Advances t := by
  cases edit with
  | newTracked path factory isNew => exact newTracked s path factory isNew
  | retireWidget w => exact retireWidget s w
  | followMove c target => exact (LeavesBooks.setContext (.followMove _ target)).advances
  | dispose c => exact (LeavesBooks.setContext (.dispose _)).advances
  | startCoordinator k => exact (LeavesBooks.startCoordinator s k).advances
  | stopCoordinator k => exact (LeavesBooks.stopCoordinator s k).advances
  | setCoordinatorInterval k interval =>
    exact (LeavesBooks.setCoordinatorInterval s k interval).advances
  | _ => exact of_eq rfl rfl

theorem stage (s : Session) (stage : Stage) (answer : stage.need.Answer) :
    s.Advances (stage.resume s answer).1 :=
  (Edits.stage s stage answer).keeps (P := s.Advances) (fun edit on => on.trans (of_edit edit))
    (refl s)

/-! ## 3. Every move -/

/-- **However a process goes on**, the session advances. -/
theorem process (s : Session) (p : Process) (answer : p.need.Answer) :
    s.Advances (p.resume s answer).1 := by
  cases hp : p.alters with
  | false => exact (LeavesBooks.process s p answer hp).advances
  | true =>
    cases p with
    | manager st =>
      have advances := stage s st answer
      simp only [Process.resume]
      split <;> (next h => rw [h] at advances; exact advances)
    | _ => cases hp

/-- Whatever the host does, the session advances. -/
theorem deed (s : Session) (d : Deed) : s.Advances (d.apply s) := by
  cases hd : d.isBystander with
  | true => exact (LeavesBooks.deed s d hd).advances
  | false =>
    cases d with
    | disposeWidget w => exact disposeWidget s w
    | newContext path modelFactory contentType kind => exact addContext s _
    | newCoordinator c interval => exact addCoordinator s _
    | _ => cases hd

end Advances

/-! ## 4. The dead -/

/-- **A context is dead** together with its coordinator: it is closed and never saved again by
itself. -/
structure Dead (s : Session) (t : Tracked) : Prop where
  made : t.context < s.contexts.length
  coordinatorMade : t.coordinator < s.coordinators.length
  owner : (s.coordinator t.coordinator).context = t.context
  disposed : (s.context t.context).isDisposed = true
  inactive : (s.coordinator t.coordinator).active = false

/-- The dead stay dead. -/
theorem Dead.advances {s u : Session} {t : Tracked} (dead : s.Dead t) (h : s.Advances u) :
    u.Dead t where
  made := Nat.lt_of_lt_of_le dead.made h.contexts_length
  coordinatorMade := Nat.lt_of_lt_of_le dead.coordinatorMade h.coordinators_length
  owner := (h.coordinator _ dead.coordinatorMade).trans dead.owner
  disposed := (h.context _ dead.made).disposed dead.disposed
  inactive := by
    refine h.inactive _ dead.coordinatorMade ?_ ?_ dead.inactive
    · rw [dead.owner]
      exact dead.made
    · rw [dead.owner]
      exact dead.disposed

end Session

namespace Ensemble

theorem advances_absorb (s : Session) (processes : List Process) :
    s.Advances (absorb s processes).session := .of_eq rfl rfl

/-- Every move advances the session. -/
theorem advances_step (e : Ensemble) : (m : Move) → e.session.Advances (e.step m).session
  | .deed d => (Session.Advances.deed e.session d).trans (advances_absorb _ _)
  | .enter p => by
    simp only [step]
    split <;> exact .refl _
  | .go i oracle => by
    simp only [step]
    rcases go_cases e i oracle with h | ⟨p, others, -, -, h⟩
    · rw [h]
      exact .refl _
    · rw [h]
      exact (Session.Advances.process _ p _).trans (advances_absorb _ _)

/-- **Every run advances the session.** -/
theorem advances_run (moves : List Move) (e : Ensemble) :
    e.session.Advances (e.run moves).session := by
  induction moves generalizing e with
  | nil => exact .refl e.session
  | cons m moves ih => exact (advances_step e m).trans (ih (e.step m))

end Ensemble

end Folio
