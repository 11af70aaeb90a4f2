/-
# What the host was told about widgets

Of every widget the host is told when it is made and when it is disposed.  Given the widgets in
use, the ledger is in order if nothing else was told about them than that they were made, and of
every other widget either nothing or both, in that order (`Session.Ledger`).

Two operations change it: a new widget comes into use, and one in use is retired.
-/
import Folio.Session.Basic

namespace Folio

/-- The widget that the host is told about. -/
def LifecycleEvent.widget : LifecycleEvent → WidgetId
  | .adopted w _ _ => w
  | .disposed w => w

namespace Session

/-- **All that the host was told about a widget.** -/
def history (s : Session) (w : WidgetId) : List LifecycleEvent :=
  s.lifecycle.filter fun e => e.widget == w

/-- The widget is in use: the host was told that it was made and nothing else, and it is not
disposed. -/
structure InUse (s : Session) (w : WidgetId) : Prop where
  history : ∃ c hint, s.history w = [.adopted w c hint]
  widget : ∃ x, s.widget? w = some x ∧ x.disposed = false

/-- **The widget is retired**: it is disposed, and the host was told that it was made and, after
that, once that it was disposed. -/
structure Retired (s : Session) (w : WidgetId) : Prop where
  history : ∃ c hint, s.history w = [.adopted w c hint, .disposed w]
  widget : ∃ x, s.widget? w = some x ∧ x.disposed = true

/-- **The ledger is in order**, if these are the widgets in use. -/
structure Ledger (s : Session) (shown : List WidgetId) : Prop where
  nodup : shown.Nodup
  issued : ∀ e ∈ s.lifecycle, ∃ n < s.widgets.length, e.widget = .issued n
  inUse : ∀ w ∈ shown, s.InUse w
  others : ∀ w, w ∉ shown → s.history w = [] ∨ s.Retired w

/-! ## 1. What changes a history -/

theorem history_tell (s : Session) (e : LifecycleEvent) (w : WidgetId) :
    (s.tell e).history w = s.history w ++ if e.widget = w then [e] else [] := by
  simp only [history, tell, List.filter_append, List.filter_cons, List.filter_nil, beq_iff_eq]

/-- A widget that the host was told about was in the ledger before. -/
theorem history_ne_nil {s : Session} {w : WidgetId} {e : LifecycleEvent} (h : e ∈ s.lifecycle)
    (same : e.widget = w) : s.history w ≠ [] :=
  List.ne_nil_of_mem (List.mem_filter.mpr ⟨h, beq_iff_eq.mpr same⟩)

theorem history_disposeWidget (s : Session) (v w : WidgetId) :
    (s.disposeWidget v).history w = s.history w := by
  cases v <;> rfl

theorem widget?_disposeWidget_of_ne {s : Session} {v w : WidgetId} (h : w ≠ v) :
    (s.disposeWidget v).widget? w = s.widget? w := by
  cases v with
  | foreign => rfl
  | issued n =>
    cases w with
    | foreign => rfl
    | issued m =>
      have hnm : n ≠ m := fun same => h (by rw [same])
      simp [disposeWidget, widget?, hnm]

theorem widget?_disposeWidget {s : Session} {w : WidgetId} {x : Widget}
    (h : s.widget? w = some x) :
    (s.disposeWidget w).widget? w = some { x with disposed := true } := by
  cases w with
  | foreign => cases h
  | issued n =>
    simp only [widget?] at h
    simp [disposeWidget, widget?, h]

/-- What makes no difference to the widgets and to what was told keeps what is in use. -/
theorem InUse.congr {s t : Session} {w : WidgetId} (inUse : s.InUse w)
    (history : t.history w = s.history w) (widget : t.widget? w = s.widget? w) : t.InUse w :=
  ⟨history ▸ inUse.history, widget ▸ inUse.widget⟩

theorem Retired.congr {s t : Session} {w : WidgetId} (retired : s.Retired w)
    (history : t.history w = s.history w) (widget : t.widget? w = s.widget? w) : t.Retired w :=
  ⟨history ▸ retired.history, widget ▸ retired.widget⟩

namespace Ledger

/-- Whatever keeps the widgets and what was told keeps the ledger. -/
theorem of_eq {s t : Session} {shown : List WidgetId} (ledger : s.Ledger shown)
    (widgets : t.widgets = s.widgets) (lifecycle : t.lifecycle = s.lifecycle) :
    t.Ledger shown := by
  have history : ∀ w, t.history w = s.history w := fun w => by
    rw [Session.history, lifecycle, Session.history]
  have widget : ∀ w, t.widget? w = s.widget? w := fun w => by
    cases w with
    | issued n => simp only [widget?, widgets]
    | foreign => rfl
  refine ⟨ledger.nodup, ?_, ?_, ?_⟩
  · rw [lifecycle, widgets]
    exact ledger.issued
  · exact fun w hw => (ledger.inUse w hw).congr (history w) (widget w)
  · intro w hw
    rw [history w]
    exact (ledger.others w hw).imp_right fun retired => retired.congr (history w) (widget w)

/-- The order of the widgets in use makes no difference. -/
theorem perm {s : Session} {shown shown' : List WidgetId} (ledger : s.Ledger shown)
    (h : shown.Perm shown') : s.Ledger shown' where
  nodup := h.nodup_iff.mp ledger.nodup
  issued := ledger.issued
  inUse w hw := ledger.inUse w (h.mem_iff.mpr hw)
  others w hw := ledger.others w fun hw' => hw (h.mem_iff.mp hw')

/-- The widget that is made next was never told about. -/
theorem history_next {s : Session} {shown : List WidgetId} (ledger : s.Ledger shown) :
    s.history (.issued s.widgets.length) = [] := by
  refine List.filter_eq_nil_iff.mpr fun e he same => ?_
  obtain ⟨n, hn, issued⟩ := ledger.issued e he
  rw [issued, beq_iff_eq, WidgetId.issued.injEq] at same
  omega

/-- **A new widget comes into use.** -/
theorem newWidget {s : Session} {shown : List WidgetId} (ledger : s.Ledger shown)
    (factory : WidgetFactory) (c : ContextId) (hint : Option OpenHint) :
    (s.newWidget factory c hint).1.Ledger (shown ++ [.issued s.widgets.length]) := by
  have history : ∀ w, (s.newWidget factory c hint).1.history w = s.history w ++
      if WidgetId.issued s.widgets.length = w then
        [.adopted (.issued s.widgets.length) c hint] else [] := history_tell _ _
  have length : (s.newWidget factory c hint).1.widgets.length = s.widgets.length + 1 := by
    simp [Session.newWidget, addWidget, tell]
  have old : ∀ w x, s.widget? w = some x → (s.newWidget factory c hint).1.widget? w = some x := by
    intro w x hx
    cases w with
    | foreign => cases hx
    | issued n =>
      simp only [widget?] at hx ⊢
      simp [Session.newWidget, addWidget, tell, List.getElem?_append_left
        (List.getElem?_eq_some_iff.mp hx).1, hx]
  have fresh : WidgetId.issued s.widgets.length ∉ shown := by
    intro hmem
    obtain ⟨x, hx, -⟩ := (ledger.inUse _ hmem).widget
    simp [widget?] at hx
  refine ⟨?_, ?_, ?_, ?_⟩
  · refine List.nodup_append.mpr ⟨ledger.nodup, List.pairwise_singleton _ _, ?_⟩
    intro v hv w hw same
    rw [List.mem_singleton.mp hw] at same
    exact fresh (same ▸ hv)
  · intro e he
    rcases List.mem_append.mp he with he | he
    · obtain ⟨n, hn, issued⟩ := ledger.issued e he
      exact ⟨n, by omega, issued⟩
    · rw [List.mem_singleton.mp he]
      exact ⟨s.widgets.length, by omega, rfl⟩
  · intro w hw
    rcases List.mem_append.mp hw with hw | hw
    · have notNew : WidgetId.issued s.widgets.length ≠ w := fun same => fresh (same ▸ hw)
      obtain ⟨⟨c', hint', hhist⟩, ⟨x, hx, live⟩⟩ := ledger.inUse w hw
      refine ⟨⟨c', hint', ?_⟩, ⟨x, old w x hx, live⟩⟩
      rw [history, if_neg notNew, List.append_nil, hhist]
    · rw [List.mem_singleton.mp hw]
      refine ⟨⟨c, hint, ?_⟩, ?_⟩
      · rw [history, if_pos rfl, ledger.history_next, List.nil_append]
      · simp [Session.newWidget, addWidget, tell, widget?]
  · intro w hw
    rw [List.mem_append, List.mem_singleton, not_or] at hw
    have same : (s.newWidget factory c hint).1.history w = s.history w := by
      rw [history, if_neg (Ne.symm hw.2), List.append_nil]
    rcases ledger.others w hw.1 with none | ⟨told, x, hx, gone⟩
    · exact Or.inl (same.trans none)
    · exact Or.inr ⟨same ▸ told, x, old w x hx, gone⟩

/-- **A widget in use is retired.** -/
theorem retireWidget {s : Session} {w : WidgetId} {shown : List WidgetId}
    (ledger : s.Ledger (w :: shown)) : (s.retireWidget w).Ledger shown := by
  obtain ⟨notShown, nodup⟩ := List.nodup_cons.mp ledger.nodup
  have history : ∀ v, (s.retireWidget w).history v =
      s.history v ++ if w = v then [.disposed w] else [] := fun v => by
    rw [Session.retireWidget, history_tell, history_disposeWidget]
    rfl
  have length : (s.retireWidget w).widgets.length = s.widgets.length := by
    cases w <;> simp [Session.retireWidget, disposeWidget, tell]
  have kept : ∀ v, v ≠ w → (s.retireWidget w).history v = s.history v := fun v hv => by
    rw [history, if_neg (Ne.symm hv), List.append_nil]
  obtain ⟨⟨c, hint, told⟩, ⟨x, hx, -⟩⟩ := ledger.inUse w List.mem_cons_self
  refine ⟨nodup, ?_, ?_, ?_⟩
  · intro e he
    rw [length]
    rcases List.mem_append.mp he with he | he
    · refine ledger.issued e ?_
      cases w <;> exact he
    · rw [List.mem_singleton.mp he]
      -- the widget was made, so it was told about before
      have before : LifecycleEvent.adopted w c hint ∈ s.history w := by
        rw [told]
        exact List.mem_singleton_self _
      exact ledger.issued (.adopted w c hint) (List.mem_filter.mp before).1
  · intro v hv
    have other : v ≠ w := fun same => notShown (same ▸ hv)
    exact (ledger.inUse v (List.mem_cons_of_mem w hv)).congr (kept v other)
      (widget?_disposeWidget_of_ne other)
  · intro v hv
    by_cases same : v = w
    · subst same
      refine Or.inr ⟨⟨c, hint, ?_⟩, _, widget?_disposeWidget hx, rfl⟩
      rw [history, if_pos rfl, told]
      rfl
    · have notBefore : v ∉ w :: shown := by
        rw [List.mem_cons, not_or]
        exact ⟨same, hv⟩
      rw [kept v same]
      exact (ledger.others v notBefore).imp_right fun retired =>
        retired.congr (kept v same) (widget?_disposeWidget_of_ne same)

/-- Widgets in use are retired one after the other. -/
theorem retireEach : ∀ (closing : List Binding) {s : Session} {shown : List WidgetId},
    s.Ledger (closing.map (·.widget) ++ shown) →
      (closing.foldl (fun s b => s.retireWidget b.widget) s).Ledger shown
  | [], _, _, ledger => ledger
  | _ :: rest, _, _, ledger => retireEach rest (retireWidget ledger)

end Ledger

end Session

end Folio
