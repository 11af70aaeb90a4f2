/-
# What stands still while a file is moved

A call that moves a file waits for the store, and closes one context after the other.  Meanwhile
other processes run and the host does what it likes.  A `Relocation` names the two paths of a move
and the contexts that nobody else is to touch while it is under way; all other contexts are loaded,
saved, edited, closed and moved freely, but not to one of the two paths.

What the others do under this condition leaves the books and these contexts as they are, and brings
no context to the two paths (`Relocation.LeavesStill`).
-/
import Folio.Proofs.Manager.Ledger
import Folio.Proofs.Manager.OneContext

namespace Folio

/-- **A file is to be moved**, and these contexts stand still meanwhile. -/
structure Relocation where
  source : String
  target : String
  still : ContextId → Bool

variable {r : Relocation}

/-! ## 1. Contexts away from the two paths -/

/-- The path is one of the two. -/
def Relocation.concerns (r : Relocation) (path : String) : Bool :=
  path == r.source || path == r.target

/-- The context is closed, or at neither of the two paths. -/
def Context.IsAway (r : Relocation) (c : Context) : Prop :=
  c.isDisposed = true ∨ r.concerns c.path = false

/-- The operation in progress leads its context to one of the two paths. -/
def ContextCall.leadsTo (r : Relocation) : ContextCall → Bool
  | .renaming _ target => r.concerns target
  | _ => false

namespace Context.IsAway

variable {c d : Context}

/-- A context that evolves and stays at its path stays away. -/
theorem of_path (away : c.IsAway r) (evolves : c.Evolves d) (path : d.path = c.path) :
    d.IsAway r :=
  away.imp evolves.disposed fun elsewhere => path ▸ elsewhere

theorem followMove (away : c.IsAway r) {target : String} (elsewhere : r.concerns target = false) :
    (c.followMove target).IsAway r := by
  refine away.imp (Context.Evolves.followMove c target).disposed fun _ => ?_
  rwa [Session.path_followMove]

/-- An operation that does not lead there leaves its context away. -/
theorem resume (away : c.IsAway r) : (call : ContextCall) → (reply : call.request.Reply) →
    call.leadsTo r = false → (ContextCall.resume c call reply).1.IsAway r
  | .renaming _ _, .error _, _ => away
  | .renaming _ _, .ok _, elsewhere =>
    (away.followMove elsewhere).of_path (.of_eq rfl rfl) rfl
  | .saving path request first, reply, _ =>
    away.of_path (.resume c (.saving path request first) reply)
      (ContextCall.looks_resume Context.lasting_path c (.saving path request first) reply nofun)
  | .reverting path first, reply, _ =>
    away.of_path (.resume c (.reverting path first) reply)
      (ContextCall.looks_resume Context.lasting_path c (.reverting path first) reply nofun)
  | .fetching _, _, _ => away
  | .checkpointing _, _, _ => away
  | .listing _, _, _ => away
  | .restoring path id, reply, _ =>
    away.of_path (.resume c (.restoring path id) reply)
      (ContextCall.looks_resume Context.lasting_path c (.restoring path id) reply nofun)

end Context.IsAway

/-! ## 2. What others may do -/

/-- The deed touches no context that is to stand still, nor a widget that shows one, and moves no
other context to the two paths. -/
def Deed.spares (r : Relocation) (s : Session) : Deed → Bool
  | .setModel c _ => !r.still c
  | .followMove c target => !r.still c && !r.concerns target
  | .disposeContext c => !r.still c
  | .disposeWidget w => s.manager.bindings.all fun b => b.widget != w || !r.still b.context
  | _ => true

/-- The process is about to touch no context that is to stand still, and to move no other context
to the two paths. -/
def Process.spares (r : Relocation) (s : Session) : Process → Bool
  | .calling c call => !r.still c && !call.leadsTo r
  | .loading k call => !r.still (s.coordinator k).context && !call.leadsTo r
  | .attempt k _ => !r.still (s.coordinator k).context
  | _ => true

/-- The widget after it was disposed. -/
def Widget.retired (w : Widget) : Widget := { w with disposed := true }

@[simp] theorem Widget.retired_retired (w : Widget) : w.retired.retired = w.retired := rfl

/-- A widget is disposed, if there is one. -/
theorem Session.widget?_disposeWidget_self (s : Session) (w : WidgetId) :
    (s.disposeWidget w).widget? w = (s.widget? w).map Widget.retired := by
  cases w with
  | issued n =>
    simp only [disposeWidget, widget?, List.getElem?_modify_eq]
    rfl
  | foreign => rfl

/-- **What stands still is left alone**: the books, the contexts that are to stand still, and the
widgets that show them; and no context comes to the two paths. -/
structure Relocation.LeavesStill (r : Relocation) (s t : Session) : Prop where
  tracked : t.manager.tracked = s.manager.tracked
  bindings : t.manager.bindings = s.manager.bindings
  length : s.contexts.length ≤ t.contexts.length
  context : ∀ c < s.contexts.length, r.still c = true → t.context c = s.context c
  away : ∀ c < s.contexts.length, r.still c = false → (s.context c).IsAway r →
    (t.context c).IsAway r
  widget : ∀ w, t.widget? w = s.widget? w ∨
    (t.widget? w = (s.widget? w).map Widget.retired ∧
      ∀ b ∈ s.manager.bindings, b.widget = w → r.still b.context = false)

namespace Relocation.LeavesStill

variable {s t u : Session}

/-- Whatever keeps the books, the contexts and the widgets. -/
theorem of_eq (tracked : t.manager.tracked = s.manager.tracked)
    (bindings : t.manager.bindings = s.manager.bindings) (contexts : t.contexts = s.contexts)
    (widgets : t.widgets = s.widgets) : r.LeavesStill s t := by
  have context (c : ContextId) : t.context c = s.context c := by
    rw [Session.context, contexts, Session.context]
  refine ⟨tracked, bindings, Nat.le_of_eq (congrArg List.length contexts.symm),
    fun c _ _ => context c, fun c _ _ away => context c ▸ away, fun w => .inl ?_⟩
  cases w with
  | issued n => rw [Session.widget?, widgets, Session.widget?]
  | foreign => rfl

theorem refl (s : Session) : r.LeavesStill s s := of_eq rfl rfl rfl rfl

/-- What comes after may touch neither books nor contexts nor widgets. -/
theorem followed_by (h : r.LeavesStill s t) (leaves : t.LeavesContexts u) : r.LeavesStill s u := by
  have context (c : ContextId) : u.context c = t.context c := by
    rw [Session.context, leaves.contexts, Session.context]
  have widget (w : WidgetId) : u.widget? w = t.widget? w := by
    cases w with
    | issued n => rw [Session.widget?, leaves.widgets, Session.widget?]
    | foreign => rfl
  refine ⟨leaves.tracked.trans h.tracked, leaves.bindings.trans h.bindings, ?_,
    fun c hc still => ?_, fun c hc loose away => ?_, fun w => ?_⟩
  · rw [leaves.contexts]
    exact h.length
  · rw [context]
    exact h.context c hc still
  · rw [context]
    exact h.away c hc loose away
  · rw [widget]
    exact h.widget w

/-- A context that is not to stand still is replaced by one that is no less away. -/
theorem setContext {c : ContextId} {context : Context} (loose : r.still c = false)
    (away : (s.context c).IsAway r → context.IsAway r) :
    r.LeavesStill s (s.setContext c context) where
  tracked := rfl
  bindings := rfl
  length := Nat.le_of_eq List.length_set.symm
  context d _ still := by
    refine Session.context_setContext_of_ne context ?_
    rintro rfl
    rw [loose] at still
    cases still
  away d made _ before := by
    by_cases same : d = c
    · subst same
      rw [Session.context_setContext context made]
      exact away before
    · rwa [Session.context_setContext_of_ne context same]
  widget _ := .inl rfl

/-- **What the host does.** -/
theorem deed (s : Session) : (d : Deed) → d.spares r s = true → r.LeavesStill s (d.apply s)
  | .setRegistry _, _ => of_eq rfl rfl rfl rfl
  | .setClock _, _ => of_eq rfl rfl rfl rfl
  | .setModel c _, spares =>
    setContext (by simpa [Deed.spares] using spares) fun away => away.of_path (.of_eq rfl rfl) rfl
  | .followMove c target, spares => by
    simp only [Deed.spares, Bool.and_eq_true, Bool.not_eq_true'] at spares
    exact setContext spares.1 fun away => away.followMove spares.2
  | .disposeContext c, spares =>
    setContext (by simpa [Deed.spares] using spares) fun _ => .inl (Context.isDisposed_dispose _)
  | .disposeWidget w, spares => by
    have loose : ∀ b ∈ s.manager.bindings, b.widget = w → r.still b.context = false := by
      intro b hb shows
      have one := List.all_eq_true.mp spares b hb
      simpa [shows] using one
    have contexts : (s.disposeWidget w).contexts = s.contexts := by cases w <;> rfl
    have manager : (s.disposeWidget w).manager = s.manager := by cases w <;> rfl
    have context (c : ContextId) : (s.disposeWidget w).context c = s.context c := by
      rw [Session.context, contexts, Session.context]
    refine ⟨congrArg Manager.tracked manager, congrArg Manager.bindings manager,
      Nat.le_of_eq (congrArg List.length contexts.symm), fun c _ _ => context c,
      fun c _ _ away => ?_, fun v => ?_⟩
    · rw [Deed.apply, context]
      exact away
    · by_cases this : v = w
      · subst this
        exact .inr ⟨s.widget?_disposeWidget_self v, loose⟩
      · exact .inl (Session.widget?_disposeWidget_of_ne this)
  | .newContext _ _ _ _, _ => {
    tracked := rfl
    bindings := rfl
    length := (Session.Advances.addContext s _).contexts_length
    context := fun c made _ => Session.context_addContext_of_lt _ made
    away := fun c made _ before => by rwa [Deed.apply, Session.context_addContext_of_lt _ made]
    widget := fun _ => .inl rfl }
  | .newCoordinator _ _, _ => of_eq rfl rfl rfl rfl
  | .startCoordinator k, _ => (refl s).followed_by (.startCoordinator s k)
  | .stopCoordinator _, _ => of_eq rfl rfl rfl rfl
  | .setInterval _ _, _ => of_eq rfl rfl rfl rfl

/-- **What a bystander does.** -/
theorem process (s : Session) (p : Process) (answer : p.need.Answer) (spares : p.spares r s = true)
    (bystander : p.alters = false) : r.LeavesStill s (p.resume s answer).1 := by
  by_cases conducts : ∃ stage, p = .manager stage
  · obtain ⟨stage, rfl⟩ := conducts
    have leaves := Session.LeavesContexts.stage s stage answer bystander
    rw [Ensemble.session_manager]
    exact (refl s).followed_by leaves
  · have makes := p.makes s answer (not_exists.mp conducts)
    generalize (p.resume s answer).1 = t at makes ⊢
    have called {d : ContextId} (call : ContextCall) (reply : call.request.Reply)
        (ok : (!r.still d && !call.leadsTo r) = true) :
        r.LeavesStill s (s.setContext d (ContextCall.resume (s.context d) call reply).1) := by
      simp only [Bool.and_eq_true, Bool.not_eq_true'] at ok
      exact setContext ok.1 fun away => away.resume call reply ok.2
    cases makes with
    | nothing => exact refl s
    | called c call reply => exact called call reply spares
    | loads k call reply => exact called call reply spares
    | starts k call reply => exact (called call reply spares).followed_by (.startCoordinator _ k)
    | fires => exact of_eq rfl rfl rfl rfl
    | reschedules => exact of_eq rfl rfl rfl rfl
    | ends => exact of_eq rfl rfl rfl rfl
    | acts k a given =>
      have loose : r.still (s.coordinator k).context = false := by
        simpa [Process.spares] using spares
      have done : r.LeavesStill s (s.setContext (s.coordinator k).context
          (Attempt.resume (s.scene k) a given).1.context) := by
        refine setContext loose fun away => ?_
        exact away.of_path (Attempt.Scene.Evolves.resume (s.scene k) a given).context
          (Attempt.looks_resume Context.lasting_path (s.scene k) a given)
      exact ⟨done.tracked, done.bindings, done.length, done.context, done.away, done.widget⟩

end Relocation.LeavesStill

end Folio
