/-
# What steps do to a session

A step of a call of the manager is made of a few kinds of edits, whichever call it is: lists are
replaced, widgets and contexts come and go, contexts follow a move, coordinators are started,
stopped and set (`Session.Edit`).  Nothing else happens in any step (`Session.Edits.stage`).

So what edits keep, and what other processes make of a session keeps, every step keeps
(`Process.keeps`).
-/
import Folio.Proofs.Session.Steps
import Mathlib.Logic.Relation

namespace Folio

namespace Session

/-- **One edit of a session.** -/
inductive Edit (s : Session) : Session → Prop
  | settings (settings : AutosavePolicy) : s.Edit { s with manager.settings := settings }
  | disposed : s.Edit { s with manager.disposed := true }
  | setTracked (tracked : List Tracked) : s.Edit (s.setTracked tracked)
  | setBindings (bindings : List Binding) : s.Edit (s.setBindings bindings)
  | newWidget (factory : WidgetFactory) (c : ContextId) (hint : Option OpenHint) :
      s.Edit (s.newWidget factory c hint).1
  | retireWidget (w : WidgetId) : s.Edit (s.retireWidget w)
  | newTracked (path : String) (factory : ModelFactory) (isNew : Bool) :
      s.Edit (s.newTracked path factory isNew).1
  | followMove (c : ContextId) (target : String) (live : (s.context c).isDisposed = false) :
      s.Edit (s.setContext c ((s.context c).followMove target))
  | dispose (c : ContextId) : s.Edit (s.setContext c (s.context c).dispose)
  | startCoordinator (k : CoordinatorId) : s.Edit (s.startCoordinator k)
  | stopCoordinator (k : CoordinatorId) : s.Edit (s.stopCoordinator k)
  | setCoordinatorInterval (k : CoordinatorId) (interval : Duration) :
      s.Edit (s.setCoordinatorInterval k interval)

/-- **Edits**, one after the other. -/
def Edits : Session → Session → Prop := Relation.ReflTransGen Edit

namespace Edits

variable {s t u : Session}

theorem refl (s : Session) : s.Edits s := Relation.ReflTransGen.refl

theorem trans (h : s.Edits t) (h' : t.Edits u) : s.Edits u := Relation.ReflTransGen.trans h h'

theorem one (h : s.Edit t) : s.Edits t := Relation.ReflTransGen.single h

theorem foldl {α : Type} {f : Session → α → Session}
    (h : ∀ (s : Session) (a : α), s.Edits (f s a)) :
    ∀ (l : List α) (s : Session), s.Edits (l.foldl f s)
  | [], s => refl s
  | a :: l, s => (h s a).trans (foldl h l (f s a))

/-- **What every edit keeps, edits keep.** -/
theorem keeps {P : Session → Prop} (h : ∀ {s t}, Edit s t → P s → P t) (edits : s.Edits t)
    (hs : P s) : P t := by
  induction edits with
  | refl => exact hs
  | tail _ edit ih => exact h edit ih

/-! ## 1. What steps are made of -/

theorem retireContext (s : Session) (t : Tracked) : s.Edits (s.retireContext t) := by
  unfold Session.retireContext
  have kept := one (.setBindings (s := s) (s.manager.bindings.partition (·.context == t.context)).2)
  have retired := kept.trans (foldl (fun s (b : Binding) => one (.retireWidget (s := s) b.widget))
    (s.manager.bindings.partition (·.context == t.context)).1 _)
  exact (retired.trans (one (.stopCoordinator t.coordinator))).trans (one (.dispose t.context))

theorem bindNew (s : Session) (widget : WidgetFactory) (c : ContextId) (hint : Option OpenHint) :
    s.Edits (Manager.bindNew s widget c hint).1 := one (.newWidget widget c hint)

/-- A document gets a new context, which comes into use, and a widget. -/
theorem bindNewTracked (s : Session) (path : String) (model : ModelFactory) (isNew : Bool)
    (tracked : List Tracked) (widget : WidgetFactory) (c : ContextId) (hint : Option OpenHint) :
    s.Edits (Manager.bindNew ((s.newTracked path model isNew).1.setTracked tracked)
      widget c hint).1 :=
  ((one (.newTracked path model isNew)).trans (one (.setTracked tracked))).trans
    (bindNew _ widget c hint)

theorem afterClosing (s : Session) : (after : AfterClosing) →
    s.Edits (Manager.afterClosing s after).1
  | .open path widget model hint => by
    simp only [Manager.afterClosing, Manager.openNow]
    split
    · exact bindNew s widget _ hint
    · exact bindNewTracked s path model false _ widget _ hint
  | .create path widget model hint => bindNewTracked s path model true _ widget _ hint
  | .follow source target => by
    refine foldl (fun s t => ?_) s.manager.tracked s
    split
    · next there =>
      have live : (s.context t.context).isDisposed = false := by
        simpa using (Bool.and_eq_true_iff.mp there).1
      exact one (.followMove _ target live)
    · exact refl s
  | .delete _ => refl s
  | .clear _ => refl s
  | .finish _ => refl s

theorem retireEach (s : Session) (closing : List Tracked) (after : AfterClosing) :
    s.Edits (Manager.retireEach s closing after).1 := by
  cases closing with
  | nil => exact afterClosing s after
  | cons t rest => exact refl s

theorem retireWhere (s : Session) (test : Tracked → Bool) (after : AfterClosing) :
    s.Edits (Manager.retireWhere s test after).1 :=
  (one (.setTracked _)).trans (retireEach _ _ after)

theorem update (s : Session) : (update : ContextUpdate) → s.Edits (Manager.update s update).1
  | .open _ _ _ _ => retireWhere s _ _
  | .create _ _ _ _ => retireWhere s _ _
  | .closeWidget _ _ => refl s
  | .closeFile _ _ => retireWhere s _ _
  | .closeAll _ => retireWhere s _ _
  | .renameFile _ _ => by
    simp only [Manager.update, Manager.beginMove]
    split <;> exact refl s

theorem switchAutosave (enabled : Bool) (s : Session) (t : Tracked) :
    s.Edits (Manager.switchAutosave enabled s t) := by
  unfold Manager.switchAutosave
  split
  · exact one (.stopCoordinator t.coordinator)
  · split
    · exact one (.startCoordinator t.coordinator)
    · exact refl s

theorem read (s : Session) : (query : ContextQuery) → s.Edits (Manager.read s query).1
  | .openContexts => refl s
  | .autosaveFor _ => refl s
  | .setAutosave enabled => foldl (switchAutosave enabled) s.manager.tracked s
  | .setInterval interval =>
    foldl (fun s (t : Tracked) => one (.setCoordinatorInterval (s := s) t.coordinator interval))
      s.manager.tracked s

theorem begin (s : Session) (op : ManagerOp) : s.Edits (Manager.begin s op).1 := by
  cases op with
  | setAutosave enabled => exact one (.settings _)
  | setInterval interval => exact one (.settings _)
  | _ =>
    simp only [Manager.begin]
    first
      | exact refl s
      | (split <;> exact refl s)

theorem notFound (s : Session) (otherwise : Option Wanted) :
    s.Edits (Manager.notFound s otherwise).1 := by
  cases otherwise <;> exact refl s

theorem unbind (s : Session) (widget : WidgetId) (confirmed : Bool) :
    s.Edits (Manager.unbind s widget confirmed).1 := by
  unfold Manager.unbind
  split
  · exact refl s
  · simp only
    split
    · exact refl s
    · have unbound := one (.setBindings (s := s) (s.manager.bindings.eraseP (·.widget == widget)))
      have retired := unbound.trans (one (.retireWidget widget))
      split
      · exact retired
      · split
        · exact retired
        · exact (retired.trans (one (.setTracked _))).trans (retireEach _ _ _)

/-- **A step of a call is made of edits.** -/
theorem stage (s : Session) (stage : Stage) (answer : stage.need.Answer) :
    s.Edits (stage.resume s answer).1 := by
  cases stage with
  | called op =>
    simp only [Stage.resume]
    split
    · cases op <;> exact refl s
    · exact begin s op
  | updating change => exact update s change
  | reading query => exact read s query
  | finding path widget model otherwise =>
    simp only [Stage.resume]
    split
    · exact refl s
    · exact notFound s otherwise
  | searching c widget otherwise =>
    simp only [Stage.resume]
    split
    · exact refl s
    · exact notFound s otherwise
  | readingBindings query => cases query <;> exact refl s
  | closing t rest after => exact (retireContext s t).trans (retireEach _ rest after)
  | binding w c => exact one (.setBindings _)
  | unbinding widget confirmed => exact unbind s widget confirmed
  | confirming widget =>
    simp only [Stage.resume]
    split <;> exact refl s
  | clearing last =>
    cases last with
    | false => exact one (.setBindings [])
    | true => exact (one (.setBindings [])).trans (one .disposed)
  | moving source target models =>
    cases answer with
    | error e => exact refl s
    | ok m => exact retireWhere s _ _
  | deleting path => cases answer <;> exact refl s

end Edits

/-- An edit starts the first save or load of a new coordinator, or a loop, or nothing. -/
theorem Edit.started {s t : Session} (h : s.Edit t) :
    t.started = s.started ∨
      (∃ isNew, t.started = s.started ++ [.load s.coordinators.length isNew]) ∨
      ∃ j number place, t.started = s.started ++ [.loop j number place] := by
  cases h with
  | newTracked path factory isNew => exact .inr (.inl ⟨isNew, rfl⟩)
  | startCoordinator j =>
    unfold Session.startCoordinator
    simp only
    split
    · exact .inl rfl
    · exact .inr (.inr ⟨_, _, _, rfl⟩)
  | retireWidget w => cases w <;> exact .inl rfl
  | _ => exact .inl rfl

/-- To start a coordinator leaves alone what the manager keeps. -/
theorem manager_startCoordinator (s : Session) (k : CoordinatorId) :
    (s.startCoordinator k).manager = s.manager := by
  unfold Session.startCoordinator
  simp only
  split <;> rfl

/-- It leaves alone the registry. -/
theorem registry_startCoordinator (s : Session) (k : CoordinatorId) :
    (s.startCoordinator k).registry = s.registry := by
  unfold Session.startCoordinator
  simp only
  split <;> rfl

/-- It leaves alone the widgets, too. -/
theorem widgets_startCoordinator (s : Session) (k : CoordinatorId) :
    (s.startCoordinator k).widgets = s.widgets := by
  unfold Session.startCoordinator
  simp only
  split <;> rfl

end Session

/-! ## 2. All processes -/

/-- **What every edit keeps, and every other process, is kept by every step.** -/
theorem Process.keeps {P : Session → Prop} (edit : ∀ {s t : Session}, s.Edit t → P s → P t)
    {s : Session} {p : Process} (makes : ∀ {t}, Process.Makes s p t → P t) (h : P s)
    (answer : p.need.Answer) : P (p.resume s answer).1 := by
  cases p with
  | manager stage =>
    have kept := (Session.Edits.stage s stage answer).keeps edit h
    simp only [resume]
    split <;> (next same => rw [same] at kept; exact kept)
  | _ => exact makes (Process.makes s _ answer fun _ same => by cases same)

/-- No process registers anything. -/
theorem Process.registry_resume (s : Session) (p : Process) (answer : p.need.Answer) :
    (p.resume s answer).1.registry = s.registry := by
  refine p.keeps (P := fun t => t.registry = s.registry) (fun edit same => ?_) (fun makes => ?_) rfl
    answer
  · refine Eq.trans ?_ same
    cases edit with
    | startCoordinator k => exact Session.registry_startCoordinator _ k
    | retireWidget w => cases w <;> rfl
    | _ => rfl
  · cases makes with
    | starts k call reply => exact Session.registry_startCoordinator _ k
    | _ => rfl

end Folio
