/-
# What a step of a call makes of a session

`Stage.goesOn` says which stage follows which; here is what becomes of the session.  A step of a
call may change the settings, switch or tune the coordinators in use, take contexts out of use,
close one of them, bind or unbind a widget, or drop all bindings.  When nothing is left to be
closed, the call does what it was made for in the same step: a document is opened or created, or
contexts follow a file (`AfterClosing.Makes`).

What is shown of every step of a call is shown case by case of these (`Stage.makes`).
-/
import Folio.Proofs.Ensemble.Advance

namespace Folio

namespace Session

/-- **A document gets a context**, which comes into use. -/
def withTracked (s : Session) (path : String) (model : ModelFactory) (isNew : Bool) : Session :=
  (s.newTracked path model isNew).1.setTracked
    (s.manager.tracked ++ [⟨s.contexts.length, s.coordinators.length⟩])

/-- **What a document is open in**: the first context in use that is open for it. -/
def openFor? (s : Session) (path modelFactory : String) : Option Tracked :=
  s.manager.tracked.find? fun t => s.isOpenFor t path modelFactory

/-- What retiring widgets does not touch, withdrawing them does not touch. -/
theorem withdraw_keeps {α : Type} (f : Session → α)
    (bindings : ∀ (s : Session) (kept : List Binding), f (s.setBindings kept) = f s)
    (retires : ∀ (s : Session) (w : WidgetId), f (s.retireWidget w) = f s) (s : Session)
    (c : ContextId) : f (s.withdraw c) = f s :=
  (foldl_related (R := fun s t => f t = f s) (fun _ => rfl) (fun h h' => h'.trans h)
    (fun s (b : Binding) => retires s b.widget) _ _).trans (bindings s _)

/-- Closing a context leaves the coordinators of others as they are. -/
theorem coordinator_retireContext_of_ne (s : Session) {x : Tracked} {k : CoordinatorId}
    (other : k ≠ x.coordinator) : (s.retireContext x).coordinator k = s.coordinator k := by
  have withdrawn : (s.withdraw x.context).coordinators = s.coordinators :=
    withdraw_keeps (·.coordinators) (fun _ _ => rfl) (fun _ w => by cases w <;> rfl) s x.context
  rw [retireContext_eq]
  show ((s.withdraw x.context).stopCoordinator x.coordinator).coordinator k = s.coordinator k
  rw [stopCoordinator, coordinator_setCoordinator_of_ne _ other, coordinator, withdrawn,
    coordinator]

/-- Closing a context starts nothing. -/
theorem started_retireContext (s : Session) (x : Tracked) :
    (s.retireContext x).started = s.started := by
  rw [retireContext_eq]
  exact withdraw_keeps (·.started) (fun _ _ => rfl) (fun _ w => by cases w <;> rfl) s x.context

end Session

/-- **What a call makes** when all that it closes is closed. -/
inductive AfterClosing.Makes (s : Session) : AfterClosing → Session → Prop
  | nothing {after : AfterClosing} : Makes s after s
  | shows {path : String} {widget : WidgetFactory} {model : ModelFactory} {hint : Option OpenHint}
      {t : Tracked} (here : s.openFor? path model.name = some t) :
      Makes s (.open path widget model hint) (s.newWidget widget t.context hint).1
  | loads {path : String} {widget : WidgetFactory} {model : ModelFactory} {hint : Option OpenHint}
      (nowhere : s.openFor? path model.name = none) :
      Makes s (.open path widget model hint)
        ((s.withTracked path model false).newWidget widget s.contexts.length hint).1
  | creates {path : String} {widget : WidgetFactory} {model : ModelFactory}
      {hint : Option OpenHint} :
      Makes s (.create path widget model hint)
        ((s.withTracked path model true).newWidget widget s.contexts.length hint).1
  | follows {source target : String} :
      Makes s (.follow source target) (Manager.followAll s source target)

/-- **What a step of a call makes.** -/
inductive Stage.Makes (s : Session) : Stage → Session → Prop
  | nothing {stage : Stage} : Makes s stage s
  | setsAutosave {enabled : Bool} :
      Makes s (.called (.setAutosave enabled)) { s with manager.settings.enabled := enabled }
  | setsInterval {interval : Duration} :
      Makes s (.called (.setInterval interval)) { s with manager.settings.interval := interval }
  | switches {enabled : Bool} :
      Makes s (.reading (.setAutosave enabled))
        (s.manager.tracked.foldl (Manager.switchAutosave enabled) s)
  | tunes {interval : Duration} :
      Makes s (.reading (.setInterval interval))
        (s.manager.tracked.foldl (fun s t => s.setCoordinatorInterval t.coordinator interval) s)
  | takes {stage : Stage} {keep : List Tracked} (kept : keep.Sublist s.manager.tracked) :
      Makes s stage (s.setTracked keep)
  | retires {t : Tracked} {rest : List Tracked} {after : AfterClosing} :
      Makes s (.closing t rest after) (s.retireContext t)
  | ends {stage : Stage} {after : AfterClosing} {u : Session} (makes : after.Makes s u) :
      Makes s stage u
  | retiresLast {t : Tracked} {after : AfterClosing} {u : Session}
      (makes : after.Makes (s.retireContext t) u) : Makes s (.closing t [] after) u
  | binds {w : WidgetId} {c : ContextId} :
      Makes s (.binding w c) (s.setBindings (s.manager.bindings ++ [⟨w, c⟩]))
  | unbinds {w : WidgetId} {confirmed : Bool} (bindings : List Binding) :
      Makes s (.unbinding w confirmed) ((s.setBindings bindings).retireWidget w)
  | unbindsLast {w : WidgetId} {confirmed : Bool} (bindings : List Binding) {keep : List Tracked}
      (kept : keep.Sublist s.manager.tracked) :
      Makes s (.unbinding w confirmed) (((s.setBindings bindings).retireWidget w).setTracked keep)
  | clears {last : Bool} :
      Makes s (.clearing last)
        (if last then { s.setBindings [] with manager.disposed := true } else s.setBindings [])

namespace Manager

/-- What follows when all is closed is one of these. -/
theorem makes_afterClosing (s : Session) : (after : AfterClosing) →
    after.Makes s (afterClosing s after).1
  | .open path widget model hint => by
    simp only [afterClosing, openNow]
    split
    · next here => exact .shows here
    · next nowhere => exact .loads nowhere
  | .create path widget model hint => .creates
  | .follow source target => .follows
  | .delete path => .nothing
  | .clear last => .nothing
  | .finish r => .nothing

/-- **Contexts are taken out of use**, and the first of them is to be closed; if there are none, the
call does what it was made for. -/
theorem retireWhere_cases (s : Session) (test : Tracked → Bool) (after : AfterClosing) :
    retireWhere s test after = afterClosing s after ∨
      ∃ t rest, retireWhere s test after =
        await (s.setTracked (s.manager.tracked.filter fun t => !test t))
          (.closing t rest after) := by
  rw [retireWhere_eq]
  cases closing : s.manager.tracked.filter test with
  | cons t rest => exact .inr ⟨t, rest, rfl⟩
  | nil =>
    have all : s.manager.tracked.filter (fun t => !test t) = s.manager.tracked := by
      refine List.filter_eq_self.mpr fun t ht => ?_
      have fails : ¬ test t = true := List.filter_eq_nil_iff.mp closing t ht
      simpa using fails
    rw [all]
    exact .inl rfl

theorem makes_retireWhere (s : Session) (test : Tracked → Bool) (after : AfterClosing)
    (stage : Stage) : stage.Makes s (retireWhere s test after).1 := by
  rcases retireWhere_cases s test after with same | ⟨t, rest, same⟩
  · rw [same]
    exact .ends (makes_afterClosing s after)
  · rw [same]
    exact .takes List.filter_sublist

theorem makes_begin (s : Session) (op : ManagerOp) : (Stage.called op).Makes s (begin s op).1 := by
  cases op with
  | setAutosave enabled => exact .setsAutosave
  | setInterval interval => exact .setsInterval
  | _ =>
    simp only [begin]
    first
      | exact .nothing
      | (split <;> exact .nothing)

theorem makes_notFound (s : Session) (otherwise : Option Wanted) (stage : Stage) :
    stage.Makes s (notFound s otherwise).1 := by
  cases otherwise <;> exact .nothing

theorem makes_unbind (s : Session) (w : WidgetId) (confirmed : Bool) :
    (Stage.unbinding w confirmed).Makes s (unbind s w confirmed).1 := by
  unfold unbind
  split
  · exact .nothing
  · simp only
    split
    · exact .nothing
    · split
      · exact .unbinds _
      · split
        · exact .unbinds _
        · refine .unbindsLast _ ?_
          cases w <;> exact List.eraseP_sublist

end Manager

/-- **It makes nothing else.** -/
theorem Stage.makes (s : Session) (stage : Stage) (answer : stage.need.Answer) :
    stage.Makes s (stage.resume s answer).1 := by
  cases stage with
  | called op =>
    simp only [resume]
    split
    · cases op <;> exact .nothing
    · exact Manager.makes_begin s op
  | updating update =>
    cases update with
    | closeWidget widget confirmed => exact .nothing
    | renameFile source target =>
      simp only [resume, Manager.update, Manager.beginMove]
      split <;> exact .nothing
    | _ => exact Manager.makes_retireWhere s _ _ _
  | reading query =>
    cases query with
    | setAutosave enabled => exact .switches
    | setInterval interval => exact .tunes
    | _ => exact .nothing
  | finding path widget model otherwise =>
    simp only [resume]
    split
    · exact .nothing
    · exact Manager.makes_notFound s otherwise _
  | searching c widget otherwise =>
    simp only [resume]
    split
    · exact .nothing
    · exact Manager.makes_notFound s otherwise _
  | readingBindings query => cases query <;> exact .nothing
  | closing t rest after =>
    cases rest with
    | nil => exact .retiresLast (Manager.makes_afterClosing _ after)
    | cons u rest => exact .retires
  | binding w c => exact .binds
  | unbinding w confirmed => exact Manager.makes_unbind s w confirmed
  | confirming w =>
    simp only [resume]
    split <;> exact .nothing
  | clearing last => cases last <;> exact .clears
  | moving source target models =>
    cases answer with
    | error e => exact .nothing
    | ok m => exact Manager.makes_retireWhere s _ _ _
  | deleting path => cases answer <;> exact .nothing

end Folio
