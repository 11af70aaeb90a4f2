/-
# What is in use is live

A context that the manager has in use is not closed, provided that the host closes none by itself:
the manager takes a context out of use before it closes it, and no context is in use twice.  So the
context that a widget in use shows is live at every moment, also while calls are in progress that
close others.
-/
import Folio.Proofs.Manager.Balance
import Folio.Proofs.Manager.Paths

namespace Folio

namespace Context

/-- Whether a context is closed lasts. -/
theorem lasting_isDisposed : Lasting isDisposed where
  settle c result := by
    rcases c.settle_cases result with same | ⟨loading, -, same⟩ | ⟨loading, e, same⟩
    · rw [same]
    · simp [same, isDisposed, emit, loading]
    · simp [same, isDisposed, loading]
  afterSave c reply := by cases reply <;> rfl
  afterRevert c path reply := by
    rcases c.afterRevert_cases path reply with ⟨e, failed⟩ | ⟨file, model, -, done⟩
    · rw [failed]
    · rw [done]
      rfl

theorem isDisposed_followMove (c : Context) (target : String) :
    (c.followMove target).isDisposed = c.isDisposed := by
  unfold followMove
  split <;> rfl

theorem isDisposed_afterRename (c : Context) (target : String)
    (reply : Except StoreError Metadata) :
    (c.afterRename target reply).1.isDisposed = c.isDisposed := by
  cases reply with
  | error e => rfl
  | ok m => exact c.isDisposed_followMove target

end Context

namespace Session

/-- **What is in use is live.** -/
def Live (s : Session) : Prop :=
  ∀ t ∈ s.manager.tracked, (s.context t.context).isDisposed = false

namespace Live

variable {s u : Session}

/-- If nothing comes into use and no context is closed that stays in use. -/
theorem of_sublist (live : s.Live) (tracked : u.manager.tracked.Sublist s.manager.tracked)
    (same : ∀ t ∈ u.manager.tracked,
      (u.context t.context).isDisposed = (s.context t.context).isDisposed) : u.Live := by
  intro t ht
  rw [same t ht]
  exact live t (tracked.subset ht)

/-- If nothing comes into use and all contexts stay as they are. -/
theorem of_contexts (live : s.Live) (tracked : u.manager.tracked.Sublist s.manager.tracked)
    (contexts : u.contexts = s.contexts) : u.Live :=
  live.of_sublist tracked fun t _ => by rw [context, contexts, context]

/-! ## 1. The owner -/

/-- A new context is live. -/
theorem newTracked (live : s.Live) (made : ∀ t ∈ s.manager.tracked, s.Made t) (path : String)
    (model : ModelFactory) (isNew : Bool) :
    ((s.newTracked path model isNew).1.setTracked
      (s.manager.tracked ++ [⟨s.contexts.length, s.coordinators.length⟩])).Live := by
  intro t ht
  show ((s.newTracked path model isNew).1.context t.context).isDisposed = false
  rcases List.mem_append.mp ht with ht | ht
  · rw [context_newTracked_of_lt path model isNew (made t ht).context]
    exact live t ht
  · rw [List.mem_singleton.mp ht, context_newTracked]
    rfl

theorem newWidget (live : s.Live) (factory : WidgetFactory) (c : ContextId)
    (hint : Option OpenHint) : (s.newWidget factory c hint).1.Live :=
  live.of_contexts (List.Sublist.refl _) rfl

/-- Contexts follow a file, and no context is closed by that. -/
theorem followAll (live : s.Live) (source target : String) :
    (Manager.followAll s source target).Live := by
  have kept : ∀ c, ((Manager.followAll s source target).context c).isDisposed =
      (s.context c).isDisposed := by
    refine foldl_related (R := fun s u => ∀ c, (u.context c).isDisposed = (s.context c).isDisposed)
      (fun _ _ => rfl) (fun h h' c => (h' c).trans (h c)) (fun s (t : Tracked) => ?_)
      s.manager.tracked s
    split
    · exact looks_setContext Context.isDisposed (Context.isDisposed_followMove _ target)
    · exact fun _ => rfl
  refine live.of_sublist ?_ fun t _ => kept t.context
  rw [Manager.manager_followAll]

theorem afterClosing (live : s.Live) (made : ∀ t ∈ s.manager.tracked, s.Made t) :
    (after : AfterClosing) → (Manager.afterClosing s after).1.Live
  | .open path widget model hint => by
    simp only [Manager.afterClosing, Manager.openNow]
    split
    · exact live.newWidget widget _ hint
    · exact (live.newTracked made path model false).newWidget widget _ hint
  | .create path widget model hint => (live.newTracked made path model true).newWidget widget _ hint
  | .follow source target => live.followAll source target
  | .delete _ => live
  | .clear _ => live
  | .finish _ => live

theorem retireEach (live : s.Live) (made : ∀ t ∈ s.manager.tracked, s.Made t)
    (closing : List Tracked) (after : AfterClosing) :
    (Manager.retireEach s closing after).1.Live := by
  cases closing with
  | nil => exact live.afterClosing made after
  | cons t rest => exact live

theorem retireWhere (live : s.Live) (made : ∀ t ∈ s.manager.tracked, s.Made t)
    (test : Tracked → Bool) (after : AfterClosing) :
    (Manager.retireWhere s test after).1.Live := by
  rw [Manager.retireWhere_eq]
  have kept : (s.setTracked (s.manager.tracked.filter fun t => !test t)).Live :=
    live.of_contexts List.filter_sublist rfl
  refine kept.retireEach (fun t ht => ?_) _ after
  exact (made t (List.mem_of_mem_filter ht)).advances (.setTracked s _)

/-- **A context that leaves is closed**, and it is not in use. -/
theorem retireContext (live : s.Live) {t : Tracked} {rest : List Tracked}
    (kept : s.Kept (t :: rest) []) : (s.retireContext t).Live := by
  have manager := manager_retireContext s t
  refine live.of_sublist (by rw [manager]) fun u hu => ?_
  rw [manager] at hu
  have nodup := kept.roster.nodup
  rw [List.map_append] at nodup
  have other : u.context ≠ t.context :=
    (List.nodup_append.mp nodup).2.2 u.context (List.mem_map_of_mem hu) t.context List.mem_cons_self
  rw [context_retireContext_of_ne other]

theorem unbind (live : s.Live) (w : WidgetId) (confirmed : Bool) :
    (Manager.unbind s w confirmed).1.Live := by
  have without : (Sound.taken s w).Live := by
    refine live.of_contexts ?_ (Sound.contexts_taken s w)
    rw [Sound.tracked_taken]
  unfold Manager.unbind
  split
  · exact live
  · simp only
    split
    · exact live
    · split
      · exact without
      · split
        · exact without
        · exact without.of_contexts List.eraseP_sublist rfl

/-- **Every step of a call that alters the books** leaves what is in use live. -/
theorem stage (live : s.Live) (stage : Stage) (answer : stage.need.Answer)
    (alters : stage.alters = true) (books : s.Books stage.owned?) :
    (stage.resume s answer).1.Live := by
  have made : ∀ t ∈ s.manager.tracked, s.Made t := fun t ht =>
    books.kept.roster.made t (List.mem_append_left _ ht)
  cases stage with
  | updating update =>
    cases update with
    | closeWidget w confirmed => exact live
    | renameFile source target =>
      simp only [Stage.resume, Manager.update, Manager.beginMove]
      split <;> exact live
    | «open» path widget model hint => exact live.retireWhere made _ _
    | create path widget model hint => exact live.retireWhere made _ _
    | closeFile path delete => exact live.retireWhere made _ _
    | closeAll last => exact live.retireWhere made _ _
  | closing t rest after =>
    have kept : s.Kept (t :: rest) [] := books.kept
    refine retireEach (live.retireContext kept) (fun u hu => ?_) rest after
    exact kept.retireContext.roster.made u (List.mem_append_left _ hu)
  | binding w c => exact live.of_contexts (List.Sublist.refl _) rfl
  | unbinding w confirmed => exact live.unbind w confirmed
  | clearing last => cases last <;> exact live.of_contexts (List.Sublist.refl _) rfl
  | moving source target models =>
    cases answer with
    | error e => exact live
    | ok m => exact live.retireWhere made _ _
  | _ => cases alters

/-! ## 2. Everybody else -/

theorem process (live : s.Live) (p : Process) (answer : p.need.Answer)
    (bystander : p.alters = false) : (p.resume s answer).1.Live := by
  refine live.of_sublist ?_ fun t _ => ?_
  · rw [(LeavesBooks.process s p answer bystander).tracked]
  · exact looks_process Context.lasting_isDisposed
      (fun _ => Context.isDisposed_afterRename) answer bystander t.context

end Live

end Session

/-- The host disposes a widget or a context by itself. -/
def Deed.disposes : Deed → Bool
  | .disposeWidget _ => true
  | .disposeContext _ => true
  | _ => false

namespace Session

theorem Live.deed {s : Session} (live : s.Live) (made : ∀ t ∈ s.manager.tracked, s.Made t) :
    (d : Deed) → d.disposes = false → (d.apply s).Live
  | .setRegistry _, _ => live
  | .setClock _, _ => live
  | .setModel c model, _ => by
    refine live.of_sublist (List.Sublist.refl _) fun t _ => ?_
    have same : ({ s.context c with model } : Context).isDisposed = (s.context c).isDisposed := rfl
    exact looks_setContext Context.isDisposed same t.context
  | .followMove c target, _ => by
    refine live.of_sublist (List.Sublist.refl _) fun t _ => ?_
    exact looks_setContext Context.isDisposed (Context.isDisposed_followMove _ target) t.context
  | .newContext path modelFactory contentType kind, _ => by
    refine live.of_sublist (List.Sublist.refl _) fun t ht => ?_
    rw [Deed.apply, context_addContext_of_lt _ (made t ht).context]
  | .newCoordinator c interval, _ => live
  | .startCoordinator k, _ => by
    refine live.of_contexts ?_ (contexts_startCoordinator s k)
    rw [Deed.apply, (LeavesBooks.startCoordinator s k).tracked]
  | .stopCoordinator _, _ => live
  | .setInterval _ _, _ => live

/-- **The books are kept and what is in use is live.** -/
def LiveBooks (s : Session) (owner : Option Stage) : Prop := BooksWith [] s owner ∧ s.Live

end Session

namespace Ensemble

theorem upheld_live :
    Upheld (fun d => d.disposes = false) (fun _ => True) Session.LiveBooks where
  background _ := trivial
  continues _ _ _ _ _ _ := trivial
  started s owner inv := ⟨(upheld_books []).started s owner inv.1, inv.2⟩
  deed s owner d harmless inv := by
    refine ⟨(upheld_books []).deed s owner d ?_ inv.1, inv.2.deed (fun t ht => ?_) d harmless⟩
    · cases d <;> first | rfl | cases harmless
    · exact inv.1.1.kept.roster.made t (List.mem_append_left _ ht)
  bystander s owner p answer fits bystander inv :=
    ⟨(upheld_books []).bystander s owner p answer fits bystander inv.1,
      inv.2.process p answer bystander⟩
  owner s stage answer alters inv :=
    ⟨(upheld_books []).owner s stage answer alters inv.1,
      inv.2.stage stage answer alters inv.1.1⟩

theorem orderly_start_live (config : Settings) :
    Orderly (fun _ => True) Session.LiveBooks (.start config) :=
  .start ⟨(orderly_start config).inv, fun _ ht => absurd ht List.not_mem_nil⟩

end Ensemble

end Folio
