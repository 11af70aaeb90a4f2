/-
# The books of the manager

The books are the roster of contexts and the ledger of widgets, with what the owner of the contexts
has in hand (`Session.Books`).  Nothing of them is touched by anybody else.

A step of the owner leads from kept books to kept books.  Beside that it loses no context: one that
was in use is in use, or leaves, or is dead, which is to say closed, with a coordinator that is
inactive.  And every context that it makes it takes into use.  `Session.Sound` says all this of a
step, and `Session.Sound.stage` proves it for every stage of every call.
-/
import Folio.Proofs.Ensemble.Owner
import Folio.Proofs.Manager.Ledger
import Folio.Proofs.Manager.Roster

namespace Folio

namespace Session

/-! ## 1. The books -/

/-- The widgets in use, with those that arrive. -/
def shown (s : Session) (arriving : List Binding) : List Binding := s.manager.bindings ++ arriving

/-- **The books are kept**, given what a call has in hand. -/
structure Kept (s : Session) (leaving : List Tracked) (arriving : List Binding) : Prop where
  roster : s.Roster leaving (s.shown arriving)
  ledger : s.Ledger ((s.shown arriving).map (·.widget))

/-- **The books**, with the stage of the owner of the contexts if there is one. -/
structure Books (s : Session) (owner : Option Stage) : Prop where
  kept : s.Kept (owner.elim [] Stage.leaving) (owner.elim [] Stage.arriving)
  cleared : ∀ stage ∈ owner, stage.clears = true → s.manager.tracked = []

namespace Kept

variable {s t : Session} {leaving : List Tracked} {arriving : List Binding}

/-- What advances a session and touches neither list nor any widget keeps the books. -/
theorem advances (kept : s.Kept leaving arriving) (h : s.Advances t)
    (tracked : t.manager.tracked = s.manager.tracked)
    (bindings : t.manager.bindings = s.manager.bindings) (widgets : t.widgets = s.widgets)
    (lifecycle : t.lifecycle = s.lifecycle) : t.Kept leaving arriving := by
  have same : t.shown arriving = s.shown arriving := by rw [shown, bindings, shown]
  refine ⟨?_, ?_⟩
  · rw [same]
    exact kept.roster.advances h tracked
  · rw [same]
    exact kept.ledger.of_eq widgets lifecycle

theorem leavesBooks (kept : s.Kept leaving arriving) (h : s.LeavesBooks t) :
    t.Kept leaving arriving :=
  kept.advances h.advances h.tracked h.bindings h.widgets h.lifecycle

/-- **A widget is made** for a context that is in use. -/
theorem newWidget (kept : s.Kept [] []) (factory : WidgetFactory) {x : Tracked}
    (hx : x ∈ s.manager.tracked) (hint : Option OpenHint) :
    (s.newWidget factory x.context hint).1.Kept [] [⟨.issued s.widgets.length, x.context⟩] := by
  obtain ⟨roster, ledger⟩ := kept
  simp only [shown, List.append_nil] at roster ledger
  refine ⟨?_, ?_⟩
  · exact (roster.bind (.issued s.widgets.length) hx).advances (.of_eq rfl rfl) rfl
  · have grown := ledger.newWidget factory x.context hint
    rw [shown, List.map_append]
    exact grown

/-- **A context is made**, and a widget for it. -/
theorem newTracked (kept : s.Kept [] []) (path : String) (model : ModelFactory) (isNew : Bool)
    (factory : WidgetFactory) (hint : Option OpenHint) :
    (((s.newTracked path model isNew).1.setTracked
      (s.manager.tracked ++ [⟨s.contexts.length, s.coordinators.length⟩])).newWidget factory
        s.contexts.length hint).1.Kept [] [⟨.issued s.widgets.length, s.contexts.length⟩] := by
  obtain ⟨roster, ledger⟩ := kept
  simp only [shown, List.append_nil] at roster ledger
  refine ⟨?_, ?_⟩
  · exact (roster.newTracked path model isNew (.issued s.widgets.length)).advances
      (.of_eq rfl rfl) rfl
  · have same : ((s.newTracked path model isNew).1.setTracked
        (s.manager.tracked ++ [⟨s.contexts.length, s.coordinators.length⟩])).Ledger
        (s.manager.bindings.map (·.widget)) := ledger.of_eq rfl rfl
    have grown := same.newWidget factory s.contexts.length hint
    rw [shown, List.map_append]
    exact grown

/-- **A context that leaves is closed.** -/
theorem retireContext {x : Tracked} {rest : List Tracked} (kept : s.Kept (x :: rest) []) :
    (s.retireContext x).Kept rest [] := by
  obtain ⟨roster, ledger⟩ := kept
  simp only [shown, List.append_nil] at roster ledger
  have manager := manager_retireContext s x
  have shownNow : (s.retireContext x).shown [] =
      s.manager.bindings.filter (·.context != x.context) := by
    rw [shown, List.append_nil, manager]
  refine ⟨?_, ?_⟩
  · rw [shownNow]
    refine roster.close.advances (.retireContext s x) ?_
    rw [manager]
  · rw [shownNow]
    have parts : (s.manager.bindings.filter (·.context == x.context) ++
        s.manager.bindings.filter (·.context != x.context)).Perm s.manager.bindings :=
      List.filter_append_perm _ _
    have split := ledger.perm (parts.symm.map (·.widget))
    rw [List.map_append] at split
    have withdrawn : (s.withdraw x.context).Ledger _ :=
      Ledger.retireEach _ (s := s.setBindings _) (split.of_eq rfl rfl)
    rw [retireContext_eq]
    exact withdrawn.of_eq rfl rfl

end Kept

/-! ## 2. What becomes of contexts -/

/-- **A context is accounted for**: it is in use, or leaves, or is dead. -/
def Accounted (s : Session) (leaving : List Tracked) (t : Tracked) : Prop :=
  t ∈ s.manager.tracked ++ leaving ∨ s.Dead t

/-- **A context that is closed is dead**, and so is its coordinator. -/
theorem dead_retireContext {s : Session} {t : Tracked} (made : s.Made t) :
    (s.retireContext t).Dead t := by
  have withdrawn : s.Advances (s.withdraw t.context) := .withdraw s t.context
  have closed := made.advances (.retireContext s t)
  have before := made.advances withdrawn
  refine ⟨closed.context, closed.coordinator, closed.owner, ?_, ?_⟩
  · have there : t.context <
        ((s.withdraw t.context).stopCoordinator t.coordinator).contexts.length := before.context
    rw [retireContext_eq, context_setContext _ there]
    exact Context.isDisposed_dispose _
  · have stopped := coordinator_setCoordinator
      ((s.withdraw t.context).coordinator t.coordinator).stop before.coordinator
    rw [retireContext_eq]
    exact congrArg Coordinator.active stopped

theorem Accounted.of_advances {s u : Session} {leaving leaving' : List Tracked} {t : Tracked}
    (accounted : s.Accounted leaving t) (h : s.Advances u)
    (found : t ∈ s.manager.tracked ++ leaving → u.Accounted leaving' t) :
    u.Accounted leaving' t := by
  rcases accounted with there | dead
  · exact found there
  · exact Or.inr (dead.advances h)

/-- **A step of the owner is sound** for a session in which these contexts leave: it leads to kept
books, loses no context, and takes into use every context that it makes. -/
structure Sound (s : Session) (leaving : List Tracked) (step : Manager.Step) : Prop where
  books : step.1.Books (Stage.nextOwned? step.2)
  accounted : ∀ t, s.Accounted leaving t →
    step.1.Accounted ((Stage.nextOwned? step.2).elim [] Stage.leaving) t
  takesUp : ∀ c, s.contexts.length ≤ c → c < step.1.contexts.length →
    ∃ k, ⟨c, k⟩ ∈ step.1.manager.tracked

namespace Sound

variable {s u : Session} {leaving leaving' : List Tracked} {step : Manager.Step}

/-- A step may begin with something that makes no context and loses none. -/
theorem after (sound : u.Sound leaving' step) (h : s.Advances u)
    (length : u.contexts.length = s.contexts.length)
    (found : ∀ t ∈ s.manager.tracked ++ leaving, u.Accounted leaving' t) :
    s.Sound leaving step where
  books := sound.books
  accounted t accounted := sound.accounted t (accounted.of_advances h (found t))
  takesUp c hc := sound.takesUp c (length ▸ hc)

/-- A call goes on to a stage for which the books are kept. -/
theorem await (stage : Stage) (kept : s.Kept stage.leaving stage.arriving)
    (cleared : stage.clears = true → s.manager.tracked = []) :
    s.Sound stage.leaving (Manager.await s stage) := by
  have leaves : stage.owned?.elim [] Stage.leaving = stage.leaving := by cases stage <;> rfl
  have arrives : stage.owned?.elim [] Stage.arriving = stage.arriving := by cases stage <;> rfl
  refine ⟨⟨?_, ?_⟩, ?_, ?_⟩
  · simp only [Manager.await, Stage.nextOwned?, leaves, arrives]
    exact kept
  · intro next hnext
    simp only [Manager.await, Stage.nextOwned?, Stage.owned?] at hnext
    split at hnext
    · cases hnext
      exact cleared
    · cases hnext
  · simp only [Manager.await, Stage.nextOwned?, leaves]
    exact fun t accounted => accounted
  · intro c hc hc'
    exact absurd hc' (Nat.not_lt.mpr hc)

/-- A call ends, with nothing in hand. -/
theorem ending {result : ManagerResult} (kept : s.Kept [] []) : s.Sound [] (s, .inr result) where
  books := ⟨kept, fun _ h => by cases h⟩
  accounted t accounted := accounted
  takesUp c hc hc' := absurd hc' (Nat.not_lt.mpr hc)

/-! ## 3. Every step of the owner -/

theorem bindNew (kept : s.Kept [] []) (factory : WidgetFactory) {t : Tracked}
    (ht : t ∈ s.manager.tracked) (hint : Option OpenHint) :
    s.Sound [] (Manager.bindNew s factory t.context hint) := by
  have next : (s.newWidget factory t.context hint).1.Sound []
      (Manager.bindNew s factory t.context hint) :=
    await (.binding _ _) (kept.newWidget factory ht hint) (fun h => by cases h)
  exact next.after (.of_eq rfl rfl) rfl fun u hu => Or.inl hu

/-- **A document gets a new context**, and the call goes on to bind a widget for it. -/
theorem bindNewTracked (kept : s.Kept [] []) (path : String) (model : ModelFactory) (isNew : Bool)
    (factory : WidgetFactory) (hint : Option OpenHint) :
    s.Sound [] (Manager.bindNew ((s.newTracked path model isNew).1.setTracked
      (s.manager.tracked ++ [⟨s.contexts.length, s.coordinators.length⟩])) factory
      s.contexts.length hint) := by
  have advances : s.Advances (Manager.bindNew ((s.newTracked path model isNew).1.setTracked
      (s.manager.tracked ++ [⟨s.contexts.length, s.coordinators.length⟩])) factory
      s.contexts.length hint).1 :=
    (Advances.newTracked s path model isNew).trans (.of_eq rfl rfl)
  have next := await (.binding _ _)
    (kept.newTracked path model isNew factory hint) (fun h => by cases h)
  refine ⟨next.books, ?_, ?_⟩
  · intro t accounted
    refine accounted.of_advances advances fun there => ?_
    rw [List.append_nil] at there
    exact Or.inl (List.mem_append_left [] (List.mem_append_left _ there))
  · intro c hc hc'
    have made : c = s.contexts.length := by
      have length : (Manager.bindNew ((s.newTracked path model isNew).1.setTracked
          (s.manager.tracked ++ [⟨s.contexts.length, s.coordinators.length⟩])) factory
          s.contexts.length hint).1.contexts.length = s.contexts.length + 1 :=
        List.length_append
      omega
    rw [made]
    exact ⟨s.coordinators.length, List.mem_append_right _ (List.mem_singleton_self _)⟩

/-- **What follows when all is closed.** -/
theorem afterClosing (kept : s.Kept [] []) : (after : AfterClosing) →
    (∀ last, after = .clear last → s.manager.tracked = []) →
    s.Sound [] (Manager.afterClosing s after)
  | .open path widget model hint, _ => by
    simp only [Manager.afterClosing, Manager.openNow]
    split
    · next t found => exact bindNew kept widget (List.mem_of_find?_eq_some found) hint
    · exact bindNewTracked kept path model false widget hint
  | .create path widget model hint, _ => bindNewTracked kept path model true widget hint
  | .follow source target, _ => by
    have manager := Manager.manager_followAll s source target
    have widgets := Manager.followAll_keeps (·.widgets) (fun _ _ _ => rfl) s source target
    have lifecycle := Manager.followAll_keeps (·.lifecycle) (fun _ _ _ => rfl) s source target
    have length := Manager.followAll_keeps (·.contexts.length)
      (fun _ _ _ => List.length_set) s source target
    have advances := Advances.followAll s source target
    have next : (Manager.followAll s source target).Kept [] [] :=
      kept.advances advances (congrArg Manager.tracked manager)
        (congrArg Manager.bindings manager) widgets lifecycle
    refine (ending next).after advances length fun t ht => Or.inl ?_
    rwa [manager]
  | .delete path, _ => await (.deleting path) kept (fun h => by cases h)
  | .clear last, empty => await (.clearing last) kept (fun _ => empty last rfl)
  | .finish r, _ => ending kept

/-- **Contexts are closed one after the other.** -/
theorem retireEach {closing : List Tracked} (kept : s.Kept closing []) (after : AfterClosing)
    (empty : ∀ last, after = .clear last → s.manager.tracked = []) :
    s.Sound closing (Manager.retireEach s closing after) := by
  cases closing with
  | nil => exact afterClosing kept after empty
  | cons t rest =>
    refine await (.closing t rest after) kept fun clears => ?_
    cases after with
    | clear last => exact empty last rfl
    | _ => cases clears

/-- **Contexts are taken out of use** and are closed one after the other. -/
theorem retire (kept : s.Kept [] []) {keep closing : List Tracked}
    (perm : (keep ++ closing).Perm s.manager.tracked) (after : AfterClosing)
    (empty : ∀ last, after = .clear last → keep = []) :
    s.Sound [] (Manager.retireEach (s.setTracked keep) closing after) := by
  have next : (s.setTracked keep).Kept closing [] :=
    ⟨kept.roster.setTracked perm, kept.ledger.of_eq rfl rfl⟩
  refine (retireEach next after empty).after (.setTracked s keep) rfl fun t ht => Or.inl ?_
  rw [List.append_nil] at ht
  exact perm.mem_iff.mpr ht

theorem retireWhere (kept : s.Kept [] []) (test : Tracked → Bool) (after : AfterClosing)
    (empty : ∀ last, after = .clear last → ∀ t ∈ s.manager.tracked, test t = true) :
    s.Sound [] (Manager.retireWhere s test after) := by
  rw [Manager.retireWhere_eq]
  refine retire kept ?_ after fun last clear => ?_
  · exact List.perm_append_comm.trans (List.filter_append_perm test s.manager.tracked)
  · refine List.filter_eq_nil_iff.mpr fun t ht stays => ?_
    rw [empty last clear t ht] at stays
    exact absurd stays (by decide)

theorem update (kept : s.Kept [] []) : (update : ContextUpdate) →
    s.Sound [] (Manager.update s update)
  | .open _ _ _ _ => retireWhere kept _ _ fun _ h => by cases h
  | .create _ _ _ _ => retireWhere kept _ _ fun _ h => by cases h
  | .closeWidget widget confirmed =>
    await (.unbinding widget confirmed) kept fun h => by cases h
  | .closeFile path delete => retireWhere kept _ _ fun _ h => by cases delete <;> cases h
  | .closeAll last => retireWhere kept _ _ fun _ _ _ _ => rfl
  | .renameFile source target => by
    simp only [Manager.update, Manager.beginMove]
    split
    · exact ending kept
    · exact await (.moving source target _) kept fun h => by cases h

/-- The session after a widget was taken out of use and retired. -/
def taken (s : Session) (w : WidgetId) : Session :=
  (s.setBindings (s.manager.bindings.eraseP (·.widget == w))).retireWidget w

theorem tracked_taken (s : Session) (w : WidgetId) :
    (taken s w).manager.tracked = s.manager.tracked := by
  cases w <;> rfl

theorem bindings_taken (s : Session) (w : WidgetId) :
    (taken s w).manager.bindings = s.manager.bindings.eraseP (·.widget == w) := by
  cases w <;> rfl

theorem contexts_taken (s : Session) (w : WidgetId) : (taken s w).contexts = s.contexts := by
  cases w <;> rfl

theorem advances_taken (s : Session) (w : WidgetId) : s.Advances (taken s w) :=
  (Advances.setBindings s _).trans (.retireWidget _ w)

theorem ledger_taken (kept : s.Kept [] []) {b : Binding} {w : WidgetId}
    (found : s.manager.bindings.find? (·.widget == w) = some b) :
    (taken s w).Ledger ((s.manager.bindings.eraseP (·.widget == w)).map (·.widget)) := by
  have ledger := kept.ledger
  have same : b.widget = w := by
    have passed := List.find?_some (p := fun b : Binding => b.widget == w) found
    exact beq_iff_eq.mp passed
  rw [shown, List.append_nil] at ledger
  have split := ledger.perm ((perm_eraseP_of_find? found).map (·.widget))
  rw [List.map_cons, same] at split
  have unbound : (s.setBindings (s.manager.bindings.eraseP (·.widget == w))).Ledger _ :=
    split.of_eq rfl rfl
  exact unbound.retireWidget

/-- A widget that is not the only one of its context leaves one behind. -/
theorem isShown_otherwise {b : Binding} {w : WidgetId}
    (found : s.manager.bindings.find? (·.widget == w) = some b)
    (notLast : (s.manager.bindings.filter (·.context == b.context)).length ≠ 1) :
    b.context ∈ (s.manager.bindings.eraseP (·.widget == w)).map (·.context) := by
  have count := ((perm_eraseP_of_find? found).filter (·.context == b.context)).length_eq
  have here : (b.context == b.context) = true := beq_self_eq_true _
  simp only [List.filter_cons, here, if_true, List.length_cons] at count
  have more : (s.manager.bindings.eraseP (·.widget == w)).filter (·.context == b.context) ≠ [] := by
    intro none
    rw [none, List.length_nil] at count
    exact notLast count
  obtain ⟨other, hother⟩ := List.exists_mem_of_ne_nil _ more
  obtain ⟨there, shows⟩ := List.mem_filter.mp hother
  exact List.mem_map.mpr ⟨other, there, beq_iff_eq.mp shows⟩

/-- Contexts that stay in use after a widget was taken out are still shown, if what it showed is
shown by another one or is not in use. -/
theorem kept_taken (kept : s.Kept [] []) {b : Binding} {w : WidgetId}
    (found : s.manager.bindings.find? (·.widget == w) = some b)
    (covered : ∀ t ∈ s.manager.tracked, t.context = b.context →
      t.context ∈ (s.manager.bindings.eraseP (·.widget == w)).map (·.context)) :
    (taken s w).Kept [] [] := by
  have roster := kept.roster
  rw [shown, List.append_nil] at roster
  have less := (roster.unbind (perm_eraseP_of_find? found) covered).advances (advances_taken s w)
    (tracked_taken s w)
  have now : (taken s w).shown [] = s.manager.bindings.eraseP (·.widget == w) := by
    rw [shown, bindings_taken, List.append_nil]
  refine ⟨?_, ?_⟩
  · rw [now]
    exact less
  · rw [now]
    exact ledger_taken kept found

/-- **The last widget of a context is taken out**, and the context leaves. -/
theorem kept_taken_leaving (kept : s.Kept [] []) {b : Binding} {w : WidgetId} {t : Tracked}
    (found : s.manager.bindings.find? (·.widget == w) = some b) (same : t.context = b.context)
    {keep : List Tracked} (perm : (keep ++ [t]).Perm s.manager.tracked) :
    ((taken s w).setTracked keep).Kept [t] [] := by
  have roster := kept.roster
  rw [shown, List.append_nil] at roster
  have leaves := roster.setTracked perm
  have alone : ∀ u ∈ keep, u.context ≠ b.context := by
    intro u hu h
    have nodup : ((keep ++ [t]).map (·.context)).Nodup := leaves.nodup
    rw [List.map_append] at nodup
    exact (List.nodup_append.mp nodup).2.2 u.context (List.mem_map_of_mem hu) t.context
      (List.mem_singleton_self _) (h.trans same.symm)
  have less := leaves.unbind (perm_eraseP_of_find? found) fun u hu h => absurd h (alone u hu)
  have now : ((taken s w).setTracked keep).shown [] =
      s.manager.bindings.eraseP (·.widget == w) := by
    rw [shown, List.append_nil]
    exact bindings_taken s w
  have advances : (s.setTracked keep).Advances ((taken s w).setTracked keep) := by
    have same := advances_taken s w
    exact ⟨same.contexts_length, same.context, same.coordinators_length, same.coordinator,
      same.inactive⟩
  refine ⟨?_, ?_⟩
  · rw [now]
    exact less.advances advances rfl
  · rw [now]
    exact (ledger_taken kept found).of_eq rfl rfl

/-- **A widget is taken out.**  Its context stays in use if another widget shows it, and else leaves
with it. -/
theorem unbind (kept : s.Kept [] []) (widget : WidgetId) (confirmed : Bool) :
    s.Sound [] (Manager.unbind s widget confirmed) := by
  unfold Manager.unbind
  split
  · exact ending kept
  · next b found =>
    have tracked := tracked_taken s widget
    have length := congrArg List.length (contexts_taken s widget)
    have stays : ∀ t ∈ s.manager.tracked ++ [], (taken s widget).Accounted [] t := by
      intro t ht
      rw [Accounted, tracked]
      exact Or.inl ht
    simp only
    split
    · exact await (.confirming widget) kept fun h => by cases h
    · split
      · next notLast =>
        have next : (taken s widget).Kept [] [] := by
          refine kept_taken kept found fun t _ same => ?_
          rw [same]
          refine isShown_otherwise found fun last => ?_
          rw [last] at notLast
          exact absurd notLast (by decide)
        exact (ending next).after (advances_taken s widget) length stays
      · split
        · next none =>
          have next : (taken s widget).Kept [] [] := by
            refine kept_taken kept found fun t ht same => ?_
            have absent := List.find?_eq_none.mp (tracked ▸ none) t ht
            exact absurd (beq_iff_eq.mpr same) absent
          exact (ending next).after (advances_taken s widget) length stays
        · next t foundContext =>
          have there : s.manager.tracked.find? (·.context == b.context) = some t :=
            tracked ▸ foundContext
          have same : t.context = b.context := by
            have passed := List.find?_some (p := fun t : Tracked => t.context == b.context) there
            exact beq_iff_eq.mp passed
          have perm : (s.manager.tracked.eraseP (·.context == b.context) ++ [t]).Perm
              s.manager.tracked :=
            List.perm_append_comm.trans (perm_eraseP_of_find? there).symm
          have next := kept_taken_leaving kept found same perm
          have advances := (advances_taken s widget).trans
            (.setTracked _ (s.manager.tracked.eraseP (·.context == b.context)))
          have leaves : ∀ u ∈ s.manager.tracked ++ [], ((taken s widget).setTracked
              (s.manager.tracked.eraseP (·.context == b.context))).Accounted [t] u := by
            intro u hu
            rw [List.append_nil] at hu
            exact Or.inl (perm.mem_iff.mpr hu)
          have sound := (retireEach next (.finish (.closed true)) fun _ h => by cases h).after
            advances length leaves
          rw [← tracked] at sound
          exact sound

/-- A context that is no longer in use is closed, and then the others. -/
theorem close {t : Tracked} {rest : List Tracked} {after : AfterClosing}
    (books : s.Books (some (.closing t rest after))) :
    s.Sound (t :: rest) (Stage.resume s (.closing t rest after) ()) := by
  have kept : s.Kept (t :: rest) [] := books.kept
  have empty : ∀ last, after = .clear last → s.manager.tracked = [] := fun last clear =>
    books.cleared _ rfl (by rw [clear]; rfl)
  have made : s.Made t := kept.roster.made t (List.mem_append_right _ List.mem_cons_self)
  have advances := Advances.retireContext s t
  have manager := manager_retireContext s t
  have length : (s.retireContext t).contexts.length = s.contexts.length :=
    contexts_length_retireContext s t
  refine (retireEach kept.retireContext after fun last clear => ?_).after advances length ?_
  · rw [manager]
    exact empty last clear
  · intro u hu
    rcases List.mem_append.mp hu with hu | hu
    · rw [Accounted, manager]
      exact Or.inl (List.mem_append_left rest hu)
    · rcases List.mem_cons.mp hu with rfl | hu
      · exact Or.inr (dead_retireContext made)
      · exact Or.inl (List.mem_append_right _ hu)

/-- A widget is added. -/
theorem bind {w : WidgetId} {c : ContextId} (kept : s.Kept [] [⟨w, c⟩]) :
    s.Sound [] (Stage.resume s (.binding w c) ()) := by
  have next : (s.setBindings (s.manager.bindings ++ [⟨w, c⟩])).Kept [] [] := by
    have now : (s.setBindings (s.manager.bindings ++ [⟨w, c⟩])).shown [] =
        s.manager.bindings ++ [⟨w, c⟩] := List.append_nil _
    refine ⟨?_, ?_⟩
    · rw [now]
      exact kept.roster.advances (.setBindings s _) rfl
    · rw [now]
      exact kept.ledger.of_eq rfl rfl
  exact (ending next).after (.setBindings s _) rfl fun u hu => Or.inl hu

/-- All widgets are dropped: no context is in use, so no widget is. -/
theorem clear {last : Bool} (books : s.Books (some (.clearing last))) :
    s.Sound [] (Stage.resume s (.clearing last) ()) := by
  have kept : s.Kept [] [] := books.kept
  have empty : s.manager.tracked = [] := books.cleared _ rfl rfl
  have none : s.manager.bindings = [] := by
    refine List.eq_nil_iff_forall_not_mem.mpr fun b hb => ?_
    have bound := kept.roster.bound b (List.mem_append_left [] hb)
    rw [empty] at bound
    exact absurd bound List.not_mem_nil
  have advances : s.Advances (Stage.resume s (.clearing last) ()).1 :=
    Advances.stage s (.clearing last) ()
  have next : (Stage.resume s (.clearing last) ()).1.Kept [] [] :=
    kept.advances advances (by cases last <;> rfl) (by cases last <;> exact none.symm)
      (by cases last <;> rfl) (by cases last <;> rfl)
  have length : (Stage.resume s (.clearing last) ()).1.contexts.length = s.contexts.length := by
    cases last <;> rfl
  refine (ending next).after advances length fun u hu => ?_
  rw [empty] at hu
  exact absurd hu List.not_mem_nil

/-- **Every step of a call that alters the books is sound.** -/
theorem stage (stage : Stage) (answer : stage.need.Answer) (alters : stage.alters = true)
    (books : s.Books stage.owned?) :
    s.Sound (stage.owned?.elim [] Stage.leaving) (stage.resume s answer) := by
  cases stage with
  | updating update => exact Sound.update books.kept update
  | closing t rest after => exact close books
  | binding w c => exact bind books.kept
  | unbinding widget confirmed => exact Sound.unbind books.kept widget confirmed
  | clearing last => exact clear books
  | moving source target models =>
    cases answer with
    | error e => exact ending books.kept
    | ok m => exact retireWhere books.kept _ _ fun _ h => by cases h
  | _ => cases alters

end Sound

end Session

end Folio
