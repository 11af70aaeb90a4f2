/-
# Widgets that the host disposes by itself

The books of the manager do not notice whether a widget is disposed: no call that alters them looks
at widgets.  So a session in which the host has disposed widgets by itself has a twin, in which it
has not, and the two take the same steps (`Session.Twin.stage`).  The twin keeps the books; what is
known of them holds of the session, but for the widgets, of which more may be disposed here than
there.
-/
import Folio.Proofs.Manager.Balance

namespace Folio

namespace Session

variable {s t u : Session}

/-! ## 1. Widgets that the host disposes by itself -/

/-- The session with other widgets. -/
def withWidgets (s : Session) (widgets : List Widget) : Session := { s with widgets }

/-- Of the widgets there, those that are disposed are disposed here as well. -/
structure DisposedWithin (there here : List Widget) : Prop where
  length : there.length = here.length
  disposed : ∀ (n : Nat) (x : Widget), there[n]? = some x → x.disposed = true →
    ∃ y, here[n]? = some y ∧ y.disposed = true

namespace DisposedWithin

variable {there here : List Widget}

theorem refl (widgets : List Widget) : DisposedWithin widgets widgets :=
  ⟨rfl, fun _ x found disposed => ⟨x, found, disposed⟩⟩

theorem append (h : DisposedWithin there here) (w : Widget) :
    DisposedWithin (there ++ [w]) (here ++ [w]) := by
  refine ⟨by simp [h.length], fun n x found disposed => ?_⟩
  rw [List.getElem?_append, h.length] at found
  rw [List.getElem?_append]
  split at found
  · next before =>
    rw [if_pos before]
    exact h.disposed n x found disposed
  · next after =>
    rw [if_neg after]
    exact ⟨x, found, disposed⟩

/-- A widget is disposed here. -/
theorem modify_here (h : DisposedWithin there here) (n : Nat) :
    DisposedWithin there (here.modify n fun w => { w with disposed := true }) := by
  refine ⟨by simp [h.length], fun m x found disposed => ?_⟩
  obtain ⟨y, got, gone⟩ := h.disposed m x found disposed
  by_cases same : n = m
  · exact ⟨{ y with disposed := true }, by simp [same, got], rfl⟩
  · exact ⟨y, by simp [same, got], gone⟩

/-- A widget is disposed in both. -/
theorem modify (h : DisposedWithin there here) (n : Nat) :
    DisposedWithin (there.modify n fun w => { w with disposed := true })
      (here.modify n fun w => { w with disposed := true }) := by
  refine ⟨by simp [h.length], fun m x found disposed => ?_⟩
  by_cases same : n = m
  · subst same
    have made : n < here.length := by
      have there_n := (List.getElem?_eq_some_iff.mp found).1
      rwa [List.length_modify, h.length] at there_n
    exact ⟨{ here[n] with disposed := true }, by simp [made], rfl⟩
  · have old : there[m]? = some x := by simpa [same] using found
    obtain ⟨y, got, gone⟩ := h.disposed m x old disposed
    exact ⟨y, by simp [same, got], gone⟩

end DisposedWithin

/-- **A twin of the session**: the session as it were, had the host not disposed some widgets by
itself. -/
def Twin (s u : Session) : Prop := ∃ widgets, DisposedWithin widgets s.widgets ∧
  u = s.withWidgets widgets

/-- Of twins, a step makes twins, and the call goes on in the same way. -/
structure TwinSteps (a b : Manager.Step) : Prop where
  session : a.1.Twin b.1
  next : b.2 = a.2

namespace Twin

theorem refl (s : Session) : s.Twin s := ⟨s.widgets, .refl _, rfl⟩

/-- What leaves the widgets alone and does not look at them makes twins of twins. -/
theorem map (h : s.Twin u) (f : Session → Session)
    (blind : ∀ s widgets, f (withWidgets s widgets) = (f s).withWidgets widgets)
    (same : ∀ s, (f s).widgets = s.widgets) : (f s).Twin (f u) := by
  obtain ⟨widgets, within, rfl⟩ := h
  exact ⟨widgets, same s ▸ within, blind s widgets⟩

theorem foldl {α : Type} {f : Session → α → Session}
    (step : ∀ {s u : Session} (a : α), s.Twin u → (f s a).Twin (f u a)) :
    ∀ (l : List α) {s u : Session}, s.Twin u → (l.foldl f s).Twin (l.foldl f u)
  | [], _, _, h => h
  | a :: l, _, _, h => foldl step l (step a h)

theorem retireWidget (h : s.Twin u) (w : WidgetId) :
    (s.retireWidget w).Twin (u.retireWidget w) := by
  obtain ⟨widgets, within, rfl⟩ := h
  cases w with
  | issued n => exact ⟨_, within.modify n, rfl⟩
  | foreign => exact ⟨widgets, within, rfl⟩

theorem newWidget (h : s.Twin u) (factory : WidgetFactory) (c : ContextId)
    (hint : Option OpenHint) :
    (s.newWidget factory c hint).1.Twin (u.newWidget factory c hint).1 ∧
      (u.newWidget factory c hint).2 = (s.newWidget factory c hint).2 := by
  obtain ⟨widgets, within, rfl⟩ := h
  have next : WidgetId.issued widgets.length = .issued s.widgets.length := by rw [within.length]
  refine ⟨⟨_, within.append _, ?_⟩, next⟩
  show ((s.withWidgets widgets).addWidget _).1.tell (.adopted (.issued widgets.length) c hint) = _
  rw [next]
  rfl

theorem setTracked (h : s.Twin u) (tracked : List Tracked) :
    (s.setTracked tracked).Twin (u.setTracked tracked) :=
  h.map (·.setTracked tracked) (fun _ _ => rfl) fun _ => rfl

theorem setBindings (h : s.Twin u) (bindings : List Binding) :
    (s.setBindings bindings).Twin (u.setBindings bindings) :=
  h.map (·.setBindings bindings) (fun _ _ => rfl) fun _ => rfl

theorem manager (h : s.Twin u) : u.manager = s.manager := by
  obtain ⟨widgets, -, rfl⟩ := h
  rfl

theorem retireContext (h : s.Twin u) (t : Tracked) :
    (s.retireContext t).Twin (u.retireContext t) := by
  have withdrawn : (s.withdraw t.context).Twin (u.withdraw t.context) := by
    rw [Session.withdraw, Session.withdraw, h.manager]
    exact foldl (fun b h => h.retireWidget b.widget) _ (h.setBindings _)
  rw [retireContext_eq, retireContext_eq]
  have stopped := withdrawn.map (·.stopCoordinator t.coordinator) (fun _ _ => rfl) fun _ => rfl
  exact stopped.map (fun s => s.setContext t.context (s.context t.context).dispose)
    (fun _ _ => rfl) fun _ => rfl

/-! ## 2. Twins take the same steps -/

theorem await (h : s.Twin u) (stage : Stage) :
    TwinSteps (Manager.await s stage) (Manager.await u stage) := ⟨h, rfl⟩

theorem bindNew (h : s.Twin u) (widget : WidgetFactory) (c : ContextId) (hint : Option OpenHint) :
    TwinSteps (Manager.bindNew s widget c hint) (Manager.bindNew u widget c hint) := by
  obtain ⟨session, same⟩ := h.newWidget widget c hint
  refine ⟨session, ?_⟩
  show Sum.inl (Stage.binding (u.newWidget widget c hint).2 c) = _
  rw [same]
  rfl

theorem createNow (h : s.Twin u) (path : String) (widget : WidgetFactory) (model : ModelFactory)
    (isNew : Bool) (hint : Option OpenHint) :
    TwinSteps
      (Manager.bindNew ((s.newTracked path model isNew).1.setTracked
        (s.manager.tracked ++ [(s.newTracked path model isNew).2])) widget
        (s.newTracked path model isNew).2.context hint)
      (Manager.bindNew ((u.newTracked path model isNew).1.setTracked
        (u.manager.tracked ++ [(u.newTracked path model isNew).2])) widget
        (u.newTracked path model isNew).2.context hint) := by
  have made := h.map (fun s => (s.newTracked path model isNew).1.setTracked
    (s.manager.tracked ++ [(s.newTracked path model isNew).2])) (fun _ _ => rfl) fun _ => rfl
  have same : (u.newTracked path model isNew).2 = (s.newTracked path model isNew).2 := by
    obtain ⟨widgets, -, rfl⟩ := h
    rfl
  rw [same] at made ⊢
  exact made.bindNew widget _ hint

theorem openNow (h : s.Twin u) (path : String) (widget : WidgetFactory) (model : ModelFactory)
    (hint : Option OpenHint) :
    TwinSteps (Manager.openNow s path widget model hint)
      (Manager.openNow u path widget model hint) := by
  have same : (u.manager.tracked.find? fun t => u.isOpenFor t path model.name) =
      s.manager.tracked.find? fun t => s.isOpenFor t path model.name := by
    obtain ⟨widgets, -, rfl⟩ := h
    rfl
  unfold Manager.openNow
  rw [same]
  split
  · exact h.bindNew widget _ hint
  · exact h.createNow path widget model false hint

theorem followAll (h : s.Twin u) (source target : String) :
    (Manager.followAll s source target).Twin (Manager.followAll u source target) := by
  unfold Manager.followAll
  rw [h.manager]
  refine foldl (fun t h => ?_) _ h
  refine h.map (fun s => if s.isAt t source then
    s.setContext t.context ((s.context t.context).followMove target) else s) (fun s widgets => ?_)
    fun s => ?_
  · show (if s.isAt t source then _ else _) = _
    split <;> rfl
  · show Session.widgets (if s.isAt t source then _ else _) = _
    split <;> rfl

theorem afterClosing (h : s.Twin u) : (after : AfterClosing) →
    TwinSteps (Manager.afterClosing s after) (Manager.afterClosing u after)
  | .open path widget model hint => h.openNow path widget model hint
  | .create path widget model hint => h.createNow path widget model true hint
  | .follow source target => ⟨h.followAll source target, rfl⟩
  | .delete path => h.await (.deleting path)
  | .clear last => h.await (.clearing last)
  | .finish _ => ⟨h, rfl⟩

theorem retireEach (h : s.Twin u) (closing : List Tracked) (after : AfterClosing) :
    TwinSteps (Manager.retireEach s closing after) (Manager.retireEach u closing after) := by
  cases closing with
  | nil => exact h.afterClosing after
  | cons t rest => exact h.await (.closing t rest after)

theorem retireWhere (h : s.Twin u) {test test' : Tracked → Bool} (same : test' = test)
    (after : AfterClosing) :
    TwinSteps (Manager.retireWhere s test after) (Manager.retireWhere u test' after) := by
  rw [Manager.retireWhere_eq, Manager.retireWhere_eq, h.manager, same]
  exact (h.setTracked _).retireEach _ after

theorem beginMove (h : s.Twin u) (source target : String) :
    TwinSteps (Manager.beginMove s source target) (Manager.beginMove u source target) := by
  have models : Manager.modelsAt u source = Manager.modelsAt s source := by
    obtain ⟨widgets, -, rfl⟩ := h
    rfl
  have unsaved (models : List String) : Manager.isDisplacedUnsaved u target models =
      Manager.isDisplacedUnsaved s target models := by
    obtain ⟨widgets, -, rfl⟩ := h
    rfl
  unfold Manager.beginMove
  simp only [models, unsaved, h.manager]
  split
  · exact ⟨h, rfl⟩
  · exact h.await _

theorem update (h : s.Twin u) (update : ContextUpdate) :
    TwinSteps (Manager.update s update) (Manager.update u update) := by
  cases update with
  | closeWidget widget confirmed => exact h.await _
  | renameFile source target => exact h.beginMove source target
  | _ => exact h.retireWhere (by obtain ⟨widgets, -, rfl⟩ := h; rfl) _

theorem unbind (h : s.Twin u) (widget : WidgetId) (confirmed : Bool) :
    TwinSteps (Manager.unbind s widget confirmed) (Manager.unbind u widget confirmed) := by
  have dirty (c : ContextId) : (u.context c).model.dirty = (s.context c).model.dirty := by
    obtain ⟨widgets, -, rfl⟩ := h
    rfl
  unfold Manager.unbind
  rw [h.manager]
  split
  · exact ⟨h, rfl⟩
  · next b found =>
    have taken : ((s.setBindings (s.manager.bindings.eraseP (·.widget == widget))).retireWidget
        widget).Twin ((u.setBindings (s.manager.bindings.eraseP (·.widget == widget))).retireWidget
        widget) := (h.setBindings _).retireWidget widget
    simp only [dirty]
    split
    · exact h.await _
    · split
      · exact ⟨taken, rfl⟩
      · rw [taken.manager]
        split
        · exact ⟨taken, rfl⟩
        · exact (taken.setTracked _).retireEach _ _

/-- **Twins take the same steps**, where a call alters the books. -/
theorem stage (h : s.Twin u) (stage : Stage) (answer : stage.need.Answer)
    (alters : stage.alters = true) :
    TwinSteps (stage.resume s answer) (stage.resume u answer) := by
  cases stage with
  | updating change => exact h.update change
  | closing t rest after => exact (h.retireContext t).retireEach rest after
  | binding w c =>
    simp only [Stage.resume]
    rw [h.manager]
    exact ⟨h.setBindings _, rfl⟩
  | unbinding widget confirmed => exact h.unbind widget confirmed
  | clearing last =>
    refine ⟨?_, by cases last <;> rfl⟩
    exact h.map (fun s => (Stage.resume s (.clearing last) ()).1)
      (fun _ _ => by cases last <;> rfl) fun _ => by cases last <;> rfl
  | moving source target models =>
    cases answer with
    | error e => exact ⟨h, rfl⟩
    | ok m => exact h.retireWhere (by obtain ⟨widgets, -, rfl⟩ := h; rfl) _
  | _ => cases alters

end Twin

/-! ## 3. The books of a twin -/

/-- What leaves the books alone leaves those of a twin alone. -/
theorem LeavesBooks.withWidgets (h : s.LeavesBooks t) (widgets : List Widget) :
    (s.withWidgets widgets).LeavesBooks (t.withWidgets widgets) :=
  ⟨h.tracked, h.bindings, rfl, h.lifecycle, h.contexts_length, h.context, h.coordinators_length,
    h.coordinator, h.inactive⟩

/-- **A twin keeps the books**, and these contexts are accounted for. -/
def TwinBooks (known : List Tracked) (s : Session) (owner : Option Stage) : Prop :=
  ∃ u, s.Twin u ∧ BooksWith known u owner

theorem TwinBooks.leavesBooks {known : List Tracked} {owner : Option Stage}
    (h : TwinBooks known s owner) (leaves : s.LeavesBooks t) : TwinBooks known t owner := by
  obtain ⟨_, ⟨widgets, within, rfl⟩, books⟩ := h
  exact ⟨t.withWidgets widgets, ⟨widgets, leaves.widgets ▸ within, rfl⟩,
    books.leavesBooks (leaves.withWidgets widgets)⟩

/-- What happens to a twin as well. -/
theorem TwinBooks.map {known : List Tracked} {owner : Option Stage}
    (h : TwinBooks known s owner) (f : Session → Session)
    (twin : ∀ {u}, s.Twin u → (f s).Twin (f u))
    (keeps : ∀ {u}, BooksWith known u owner → BooksWith known (f u) owner) :
    TwinBooks known (f s) owner :=
  let ⟨_, same, books⟩ := h
  ⟨_, twin same, keeps books⟩

end Session

namespace Ensemble

/-- **Whatever the host does**, a twin keeps the books. -/
theorem upheld_twinBooks (known : List Tracked) :
    Upheld (fun _ => True) (fun _ => True) (Session.TwinBooks known) where
  background _ := trivial
  continues _ _ _ _ _ _ := trivial
  started s owner h := h.map (fun s => { s with started := [] })
    (fun twin => twin.map (fun s => { s with started := [] }) (fun _ _ => rfl) fun _ => rfl)
    fun books => books.advances (.of_eq rfl rfl) rfl rfl rfl rfl
  deed s owner d _ h := by
    cases bystander : d.isBystander with
    | true => exact h.leavesBooks (.deed s d bystander)
    | false =>
      cases d with
      | disposeWidget w =>
        obtain ⟨_, ⟨widgets, within, rfl⟩, books⟩ := h
        cases w with
        | issued n => exact ⟨_, ⟨widgets, within.modify_here n, rfl⟩, books⟩
        | foreign => exact ⟨_, ⟨widgets, within, rfl⟩, books⟩
      | newContext path modelFactory contentType kind =>
        exact h.map (fun s => (s.addContext _).1)
          (fun twin => twin.map (fun s => (s.addContext _).1) (fun _ _ => rfl) fun _ => rfl)
          fun books => books.advances (.addContext _ _) rfl rfl rfl rfl
      | newCoordinator c interval =>
        exact h.map (fun s => (s.addCoordinator _).1)
          (fun twin => twin.map (fun s => (s.addCoordinator _).1) (fun _ _ => rfl) fun _ => rfl)
          fun books => books.advances (.addCoordinator _ _) rfl rfl rfl rfl
      | _ => cases bystander
  bystander s owner p answer _ bystander h := h.leavesBooks (.process s p answer bystander)
  owner s stage answer alters h := by
    obtain ⟨u, twin, books⟩ := h
    have steps := twin.stage stage answer alters
    have sound := Session.Sound.stage stage answer alters books.1
    rw [← steps.next]
    exact ⟨_, steps.session, sound.books, fun t ht => sound.accounted t (books.2 t ht)⟩

theorem orderly_twinBooks (config : Settings) :
    Orderly (fun _ => True) (Session.TwinBooks []) (.start config) :=
  let ⟨fits, alone, inv⟩ := orderly_start config
  ⟨fits, alone, _, .refl _, inv⟩

theorem allowed_all (m : Move) : Allowed (fun _ => True) (fun _ => True) m := by
  cases m <;> trivial

/-- **A context that a process makes is in use at once**, whatever the host does. -/
theorem takesUp_twinBooks {e : Ensemble} {known : List Tracked}
    (orderly : Orderly (fun _ => True) (Session.TwinBooks known) e) (i : Nat) (oracle : Oracle) :
    ∀ c, e.session.contexts.length ≤ c → c < (e.go i oracle).session.contexts.length →
      ∃ k, ⟨c, k⟩ ∈ (e.go i oracle).session.manager.tracked := by
  refine takesUp_of_owner orderly (fun stage answer alters h c made now => ?_) i oracle
  obtain ⟨u, twin, books⟩ := h
  have steps := (twin.stage stage answer alters).session
  have sound := Session.Sound.stage stage answer alters books.1
  obtain ⟨widgets, -, same⟩ := steps
  obtain ⟨others, -, rfl⟩ := twin
  have takesUp := sound.takesUp c made
  rw [same] at takesUp
  exact takesUp now

end Ensemble

end Folio
