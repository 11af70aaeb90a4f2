/-
# The steps of a call that reveals a document

A call that reveals a document looks for a widget of its factory that shows the document, and opens
the document if it finds none.  The two are separate: the call gives the contexts back when it has
looked, and waits for them again to open.

`Session.shownBy` is what the call looks for, `Stage.Reveals` lists the places where it can be, and
`Stage.RevealStep` what its steps make, which is all of them (`Stage.Reveals.step`).  `Tally` counts
the calls that are yet to make a widget and to bind one, and `Tally.Step` is what one step does to
the count.
-/
import Folio.Proofs.Manager.Sharing
import Folio.Proofs.Manager.Relocation

namespace Folio

/-! ## 1. What shows a document -/

namespace Session

variable {s t : Session} {path model : String} {f : WidgetFactory} {c : ContextId}

/-- The bindings of live widgets of a factory that show a context, in the order in which they were
bound. -/
def showing (s : Session) (c : ContextId) (f : WidgetFactory) : List Binding :=
  s.manager.bindings.filter (Manager.shows s c f)

/-- **What shows a document**: the bindings of live widgets of a factory that show the context in
which the document is open. -/
def shownBy (s : Session) (path model : String) (f : WidgetFactory) : List Binding :=
  (s.openFor? path model).elim [] fun t => s.showing t.context f

theorem shownBy_of_openFor? {u : Tracked} (here : s.openFor? path model = some u) :
    s.shownBy path model f = s.showing u.context f := by
  rw [shownBy, here]
  rfl

theorem shownBy_of_none (nowhere : s.openFor? path model = none) :
    s.shownBy path model f = [] := by
  rw [shownBy, nowhere]
  rfl

theorem shows_congr {b : Binding} (same : t.widget? b.widget = s.widget? b.widget) :
    Manager.shows t c f b = Manager.shows s c f b := by
  rw [Manager.shows, Manager.shows, same]

/-- What shows a context is known by the bindings and their widgets. -/
theorem showing_congr (bindings : t.manager.bindings = s.manager.bindings)
    (widgets : ∀ b ∈ s.manager.bindings, t.widget? b.widget = s.widget? b.widget) :
    t.showing c f = s.showing c f := by
  rw [showing, bindings]
  exact List.filter_congr fun b hb => shows_congr (widgets b hb)

theorem widget?_newWidget {w : WidgetId} {x : Widget} (found : s.widget? w = some x)
    (factory : WidgetFactory) (d : ContextId) (hint : Option OpenHint) :
    (s.newWidget factory d hint).1.widget? w = some x := by
  cases w with
  | foreign => cases found
  | issued n =>
    have made : n < s.widgets.length := (List.getElem?_eq_some_iff.mp found).1
    exact (List.getElem?_append_left made).trans found

/-- **A widget that is yet to be bound** changes nothing of what shows a context. -/
theorem showing_newWidget (found : ∀ b ∈ s.manager.bindings, ∃ x, s.widget? b.widget = some x)
    (factory : WidgetFactory) (d : ContextId) (hint : Option OpenHint) :
    (s.newWidget factory d hint).1.showing c f = s.showing c f := by
  refine showing_congr rfl fun b hb => ?_
  obtain ⟨x, known⟩ := found b hb
  rw [known]
  exact widget?_newWidget known factory d hint

/-- The widget that was made shows its context as soon as it is bound. -/
theorem shows_newWidget (named : Text.sameAscii f.widgetName f.name = true) (d : ContextId)
    (hint : Option OpenHint) :
    Manager.shows (s.newWidget f d hint).1 d f ⟨.issued s.widgets.length, d⟩ = true := by
  have made : (s.newWidget f d hint).1.widget? (.issued s.widgets.length) =
      some { factoryName := f.widgetName, context := d, hint, custom := f.viewName.isSome } :=
    List.getElem?_concat_length ..
  simp [Manager.shows, made, named]

/-- **Closing another context** changes nothing of what shows a context. -/
theorem showing_retireContext (listed : s.Listed) {x : Tracked} (other : c ≠ x.context) :
    (s.retireContext x).showing c f = s.showing c f := by
  have kept : (s.retireContext x).manager.bindings =
      s.manager.bindings.filter (·.context != x.context) := by rw [manager_retireContext]
  rw [showing, showing, kept, List.filter_filter]
  refine List.filter_congr fun b hb => ?_
  by_cases here : b.context = c
  · -- no widget is bound twice, so the one that shows the context here is not retired
    have unretired : b.widget ∉
        (s.manager.bindings.filter (·.context == x.context)).map (·.widget) := by
      intro retired
      obtain ⟨d, hd, same⟩ := List.mem_map.mp retired
      obtain ⟨bound, there⟩ := List.mem_filter.mp hd
      obtain rfl := List.inj_on_of_nodup_map listed.once bound hb same
      exact other (here.symm.trans (beq_iff_eq.mp there))
    have same : (s.retireContext x).widget? b.widget = s.widget? b.widget := by
      rw [widget?_retireContext, if_neg unretired]
    rw [shows_congr same, bne_iff_ne.mpr (here ▸ other), Bool.and_true]
  · have elsewhere : (b.context == c) = false := beq_false_of_ne here
    simp [Manager.shows, elsewhere]

/-- **Closing a context that is not in use** changes nothing of what shows a document, if the
document stays open in the same context. -/
theorem shownBy_retireContext (listed : s.Listed) {x : Tracked}
    (away : ∀ u ∈ s.manager.tracked, u.context ≠ x.context)
    (same : (s.retireContext x).openFor? path model = s.openFor? path model) :
    (s.retireContext x).shownBy path model f = s.shownBy path model f := by
  cases here : s.openFor? path model with
  | none => rw [shownBy_of_none here, shownBy_of_none (same.trans here)]
  | some u =>
    rw [shownBy_of_openFor? here, shownBy_of_openFor? (same.trans here),
      showing_retireContext listed (away u (mem_of_openFor? here))]

/-- **A widget that is bound** to the context of a document shows it after all others. -/
theorem shownBy_bind {u : Tracked} (here : s.openFor? path model = some u) {w : WidgetId}
    (shows : Manager.shows s u.context f ⟨w, u.context⟩ = true) :
    (s.setBindings (s.manager.bindings ++ [⟨w, u.context⟩])).shownBy path model f =
      s.shownBy path model f ++ [⟨w, u.context⟩] := by
  have after : (s.setBindings (s.manager.bindings ++ [⟨w, u.context⟩])).openFor? path model =
      some u := here
  have same (b : Binding) :
      Manager.shows (s.setBindings (s.manager.bindings ++ [⟨w, u.context⟩])) u.context f b =
        Manager.shows s u.context f b := shows_congr (by cases b.widget <;> rfl)
  rw [shownBy_of_openFor? after, shownBy_of_openFor? here]
  show List.filter _ (s.manager.bindings ++ [_]) = _
  rw [List.filter_append, List.filter_cons_of_pos (by rw [same]; exact shows)]
  exact congrArg (· ++ _) (List.filter_congr fun b _ => same b)

end Session

/-! ## 2. The places of a call that reveals -/

/-- The call has not found a widget, and is yet to make one. -/
def Stage.isToMake : Stage → Bool
  | .called (.open _ _ _) => true
  | .updating _ => true
  | .closing _ _ _ => true
  | _ => false

/-- The call has made a widget, and is yet to bind it. -/
def Stage.isToBind : Stage → Bool
  | .binding _ _ => true
  | _ => false

/-- The call is about to open a document with a widget of a factory. -/
def Stage.opensWith (path : String) (f : WidgetFactory) : Stage → Bool
  | .updating (.open p g _ _) => p == path && g == f
  | .closing _ _ (.open p g _ _) => p == path && g == f
  | _ => false

theorem Stage.isToMake_of_opensWith {path : String} {f : WidgetFactory} {stage : Stage}
    (opens : stage.opensWith path f = true) : stage.isToMake = true := by
  cases stage with
  | updating update => rfl
  | closing first rest after => rfl
  | _ => cases opens

theorem Stage.isToBind_of_opensWith {path : String} {f : WidgetFactory} {stage : Stage}
    (opens : stage.opensWith path f = true) : stage.isToBind = false := by
  cases stage with
  | binding w c => cases opens
  | _ => rfl

/-- The step leads to such a stage. -/
def Manager.Step.leadsTo (at_ : Stage → Bool) (step : Manager.Step) : Bool :=
  match step.2 with
  | .inl stage => at_ stage
  | .inr _ => false

/-- **Where a call can be that reveals a document** with a widget of a factory, after its first
step. -/
inductive Stage.Reveals (path : String) (f : WidgetFactory) (m : ModelFactory) (s : Session) :
    Stage → Prop where
  | finding {name : String} (hint : Option OpenHint)
      (means : Manager.factoriesFor s path name = some (f, m)) :
      Reveals path f m s (.finding path f m (some ⟨path, name, hint⟩))
  | searching {name : String} (hint : Option OpenHint)
      (means : Manager.factoriesFor s path name = some (f, m)) {u : Tracked}
      (here : s.openFor? path m.name = some u) :
      Reveals path f m s (.searching u.context f (some ⟨path, name, hint⟩))
  | called {name : String} (hint : Option OpenHint)
      (means : Manager.factoriesFor s path name = some (f, m)) :
      Reveals path f m s (.called (.open path name hint))
  | updating (hint : Option OpenHint) : Reveals path f m s (.updating (.open path f m hint))
  | closing (first : Tracked) (rest : List Tracked) (hint : Option OpenHint) :
      Reveals path f m s (.closing first rest (.open path f m hint))
  | binding (w : WidgetId) {u : Tracked} (here : s.openFor? path m.name = some u)
      (shows : Manager.shows s u.context f ⟨w, u.context⟩ = true) :
      Reveals path f m s (.binding w u.context)

/-- **What a step of such a call makes**, by where the call was. -/
inductive Stage.RevealStep (path : String) (f : WidgetFactory) (m : ModelFactory) (s : Session)
    (stage : Stage) : Manager.Step → Prop where
  /-- It looks on, or waits on; what shows the document is as before. -/
  | goesOn {t : Session} {q : Stage} (reveals : q.Reveals path f m t)
      (shown : t.shownBy path m.name f = s.shownBy path m.name f)
      (make : q.isToMake = stage.isToMake) (bind : q.isToBind = stage.isToBind) :
      RevealStep path f m s stage (t, .inl q)
  /-- It has found a widget. -/
  | finds {b : Binding} {others : List Binding} (first : s.shownBy path m.name f = b :: others)
      (make : stage.isToMake = false) (bind : stage.isToBind = false) :
      RevealStep path f m s stage (s, .inr (.ok (.widget (some b.widget))))
  /-- It has found none, and sets out to make one. -/
  | misses {q : Stage} (reveals : q.Reveals path f m s) (none : s.shownBy path m.name f = [])
      (before : stage.isToMake = false ∧ stage.isToBind = false)
      (after : q.isToMake = true ∧ q.isToBind = false) : RevealStep path f m s stage (s, .inl q)
  /-- It makes a widget. -/
  | makes {t : Session} {q : Stage} (reveals : q.Reveals path f m t)
      (shown : t.shownBy path m.name f = s.shownBy path m.name f)
      (opens : stage.opensWith path f = true) (bind : stage.isToBind = false)
      (after : q.isToMake = false ∧ q.isToBind = true) : RevealStep path f m s stage (t, .inl q)
  /-- It binds the widget that it has made. -/
  | binds {t : Session} {b : Binding}
      (shown : t.shownBy path m.name f = s.shownBy path m.name f ++ [b])
      (before : stage.isToMake = false ∧ stage.isToBind = true) :
      RevealStep path f m s stage (t, .inr (.ok (.widget (some b.widget))))

/-- **The calls that reveal a document, counted**: what shows it, how many of them are yet to make a
widget and to bind one, and how many widgets were made. -/
structure Tally where
  shown : List Binding
  toMake : Nat
  toBind : Nat
  created : Nat

/-- The calls that are on their way, and what they have bound. -/
def Tally.total (a : Tally) : Nat := a.toMake + a.toBind + a.shown.length

/-- **What a move does to the tally.** -/
inductive Tally.Step (a : Tally) : Tally → Prop where
  | stays : Step a a
  | misses (none : a.shown = []) : Step a { a with toMake := a.toMake + 1 }
  | makes {n : Nat} (one : a.toMake = n + 1) :
      Step a { a with toMake := n, toBind := a.toBind + 1, created := a.created + 1 }
  | binds {n : Nat} (b : Binding) (one : a.toBind = n + 1) :
      Step a { a with toBind := n, shown := a.shown ++ [b] }

namespace Tally.Step

variable {a b : Tally}

/-- **Each widget that was made** shows the document, or waits to be bound. -/
theorem balance (step : a.Step b) :
    b.created + a.toBind + a.shown.length = a.created + b.toBind + b.shown.length := by
  cases step with
  | stays | misses => rfl
  | makes => dsimp only; omega
  | binds c one =>
    dsimp only
    rw [List.length_append, List.length_singleton]
    omega

/-- Once something shows the document, no call sets out to open it. -/
theorem late (step : a.Step b) (shown : a.shown ≠ []) :
    b.toMake ≤ a.toMake := by
  cases step with
  | misses none => exact absurd none shown
  | makes one => exact one ▸ Nat.le_succ _
  | _ => exact Nat.le_refl _

/-- No widget is lost, and no call that is on its way. -/
theorem total_le (step : a.Step b) : a.total ≤ b.total := by
  cases step with
  | stays => exact Nat.le_refl _
  | _ =>
    simp only [Tally.total, List.length_append, List.length_singleton]
    omega

/-- **If calls take turns**, and only then, one of them at most is on its way, or has bound a
widget. -/
theorem single_iff (step : a.Step b) (single : a.total ≤ 1) :
    (b.toMake ≤ a.toMake ∨ a.toMake = 0 ∧ a.toBind = 0) ↔ b.total ≤ 1 := by
  unfold Tally.total at single ⊢
  cases step with
  | stays => exact iff_of_true (.inl (Nat.le_refl _)) single
  | misses none =>
    have none : a.shown.length = 0 := by rw [none, List.length_nil]
    dsimp only
    omega
  | makes => dsimp only; omega
  | binds c one =>
    dsimp only
    rw [List.length_append, List.length_singleton]
    omega

end Tally.Step

namespace Stage

variable {s : Session} {path : String} {f : WidgetFactory} {m : ModelFactory}

namespace RevealStep

variable {stage : Stage} {r : Manager.Step}

/-- Whoever goes on is at one of the places. -/
theorem leads (step : RevealStep path f m s stage r) {q : Stage} (goesOn : r.2 = .inl q) :
    q.Reveals path f m r.1 := by
  cases step with
  | goesOn reveals | misses reveals | makes reveals =>
    cases goesOn
    exact reveals
  | _ => cases goesOn

/-- Whoever ends returns a widget that shows the document. -/
theorem ends (step : RevealStep path f m s stage r) {result : ManagerResult}
    (ends : r.2 = .inr result) :
    ∃ b ∈ r.1.shownBy path m.name f, result = .ok (.widget (some b.widget)) := by
  cases step with
  | @finds b others first =>
    cases ends
    exact ⟨b, first ▸ List.mem_cons_self, rfl⟩
  | @binds t b shown =>
    cases ends
    exact ⟨b, shown ▸ List.mem_append_right _ List.mem_cons_self, rfl⟩
  | _ => cases ends

/-- What shows the document is kept. -/
theorem grows (step : RevealStep path f m s stage r) :
    s.shownBy path m.name f ⊆ r.1.shownBy path m.name f := by
  cases step with
  | goesOn _ shown | makes _ shown => exact shown ▸ List.Subset.refl _
  | finds | misses => exact List.Subset.refl _
  | binds shown => exact shown ▸ List.subset_append_left _ _

/-- **What the step does to the tally.** -/
theorem tally (step : RevealStep path f m s stage r) {a : Tally}
    (shown : a.shown = s.shownBy path m.name f) {toMake toBind : Nat}
    (make : toMake + stage.isToMake.toNat = a.toMake + (r.leadsTo Stage.isToMake).toNat)
    (bind : toBind + stage.isToBind.toNat = a.toBind + (r.leadsTo Stage.isToBind).toNat) :
    a.Step ⟨r.1.shownBy path m.name f, toMake, toBind,
      a.created + (stage.opensWith path f && r.leadsTo Stage.isToBind).toNat⟩ := by
  obtain ⟨shows, n, k, created⟩ := a
  obtain rfl : shows = s.shownBy path m.name f := shown
  -- only a call that opens makes a widget, and it is not to bind one then
  have never {q : Bool} (same : q = stage.isToBind) : (stage.opensWith path f && q) = false := by
    cases opens : stage.opensWith path f with
    | true => rw [same, isToBind_of_opensWith opens, Bool.true_and]
    | false => rfl
  have unmade (make : stage.isToMake = false) : stage.opensWith path f = false :=
    Bool.eq_false_iff.mpr fun opens => Bool.false_ne_true
      (make.symm.trans (isToMake_of_opensWith opens))
  cases step with
  | @goesOn t q _ same sameMake sameBind =>
    have first : toMake = n := by
      rw [show Manager.Step.leadsTo isToMake (t, .inl q) = stage.isToMake from sameMake] at make
      exact Nat.add_right_cancel make
    have second : toBind = k := by
      rw [show Manager.Step.leadsTo isToBind (t, .inl q) = stage.isToBind from sameBind] at bind
      exact Nat.add_right_cancel bind
    have third : (stage.opensWith path f && Manager.Step.leadsTo isToBind (t, .inl q)) = false :=
      never sameBind
    rw [third, first, second, same]
    exact .stays
  | finds first noMake noBind =>
    rw [noMake] at make
    rw [noBind] at bind
    rw [unmade noMake, show toMake = n from make, show toBind = k from bind]
    exact .stays
  | @misses q _ none before after =>
    obtain ⟨noMake, noBind⟩ := before
    have first : toMake = n + 1 := by simpa [noMake, Manager.Step.leadsTo, after] using make
    have second : toBind = k := by simpa [noBind, Manager.Step.leadsTo, after] using bind
    rw [unmade noMake, first, second]
    exact .misses none
  | @makes t q _ same opens noBind after =>
    have first : n = toMake + 1 := by
      simpa [isToMake_of_opensWith opens, Manager.Step.leadsTo, after] using make.symm
    have second : toBind = k + 1 := by simpa [noBind, Manager.Step.leadsTo, after] using bind
    have third : (stage.opensWith path f && Manager.Step.leadsTo isToBind (t, .inl q)) = true := by
      rw [opens, Bool.true_and]
      exact after.2
    rw [third, second, same]
    exact .makes first
  | @binds t b same before =>
    obtain ⟨noMake, toBindNow⟩ := before
    have first : toMake = n := by simpa [noMake, Manager.Step.leadsTo] using make
    have second : k = toBind + 1 := by simpa [toBindNow, Manager.Step.leadsTo] using bind.symm
    rw [unmade noMake, first, same]
    exact .binds b second

end RevealStep

/-- **Others leave the call where it is**, if names mean what they mean, what the document is open
in stays, and the widget that waits to be bound is left alone. -/
theorem Reveals.mono {stage : Stage} (reveals : stage.Reveals path f m s) {t : Session}
    (registry : t.registry = s.registry)
    (stays : ∀ u, s.openFor? path m.name = some u → t.openFor? path m.name = some u)
    (widget : ∀ w c, stage = .binding w c → t.widget? w = s.widget? w) :
    stage.Reveals path f m t := by
  have means {name : String} (before : Manager.factoriesFor s path name = some (f, m)) :
      Manager.factoriesFor t path name = some (f, m) := by
    rwa [Manager.factoriesFor, registry]
  cases reveals with
  | finding hint before => exact .finding hint (means before)
  | searching hint before here => exact .searching hint (means before) (stays _ here)
  | called hint before => exact .called hint (means before)
  | updating hint => exact .updating hint
  | closing first rest hint => exact .closing first rest hint
  | binding w here shows =>
    refine .binding w (stays _ here) ?_
    rwa [Session.shows_congr (widget w _ rfl)]

/-- A document that is open gets one more widget. -/
theorem openNow_of_openFor? {u : Tracked} (here : s.openFor? path m.name = some u)
    (hint : Option OpenHint) : Manager.openNow s path f m hint =
      ((s.newWidget f u.context hint).1,
        .inl (.binding (.issued s.widgets.length) u.context)) := by
  unfold Session.openFor? at here
  simp only [Manager.openNow, here]
  rfl

/-- A document that is open nowhere gets a context and a widget. -/
theorem openNow_of_none (nowhere : s.openFor? path m.name = none) (hint : Option OpenHint) :
    Manager.openNow s path f m hint =
      (((s.withTracked path m false).newWidget f s.contexts.length hint).1,
        .inl (.binding (.issued (s.withTracked path m false).widgets.length)
          s.contexts.length)) := by
  unfold Session.openFor? at nowhere
  simp only [Manager.openNow, nowhere]
  rfl

/-- **The document is opened** by a call that reveals it: it makes a widget for what the document is
open in. -/
theorem openNow_reveals {t : Session} (spares : s.Spares t path m.name)
    (named : Text.sameAscii f.widgetName f.name = true) (listed : s.Listed)
    (bound : ∀ b ∈ s.manager.bindings, b.context < s.contexts.length)
    (bindings : t.manager.bindings ⊆ s.manager.bindings)
    (found : ∀ b ∈ t.manager.bindings, ∃ x, t.widget? b.widget = some x)
    (shown : t.shownBy path m.name f = s.shownBy path m.name f) (hint : Option OpenHint)
    {stage : Stage} (opens : stage.opensWith path f = true) (bind : stage.isToBind = false) :
    RevealStep path f m s stage (Manager.openNow t path f m hint) := by
  cases here : t.openFor? path m.name with
  | some u =>
    have after : (t.newWidget f u.context hint).1.openFor? path m.name = some u := here
    have shows := Session.shows_newWidget (s := t) named u.context hint
    rw [openNow_of_openFor? here]
    refine .makes (.binding _ after shows) ?_ opens bind ⟨rfl, rfl⟩
    rw [← shown, Session.shownBy_of_openFor? after, Session.showing_newWidget found,
      Session.shownBy_of_openFor? here]
  | none =>
    have contexts : t.contexts.length = s.contexts.length := spares.rested.contexts
    have gets : t.Gets (t.withTracked path m false) path m.name :=
      Session.gets_withTracked (fun x hx => contexts ▸ listed.made x (spares.tracked.subset hx))
        here (Text.sameAscii_refl m.name)
    have after : ((t.withTracked path m false).newWidget f t.contexts.length hint).1.openFor? path
        m.name = some ⟨t.contexts.length, t.coordinators.length⟩ := gets.openFor
    have shows := Session.shows_newWidget (s := t.withTracked path m false) named t.contexts.length
      hint
    rw [openNow_of_none here]
    refine .makes (.binding _ after shows) ?_ opens bind ⟨rfl, rfl⟩
    -- no widget shows a context that was not there before
    rw [← shown, Session.shownBy_of_none here, Session.shownBy_of_openFor? after]
    refine List.filter_eq_nil_iff.mpr fun b hb shows => ?_
    have old : b.context < t.contexts.length := contexts ▸ bound b (bindings hb)
    have new : b.context = t.contexts.length := by
      simp only [Manager.shows, Bool.and_eq_true, beq_iff_eq] at shows
      exact shows.1
    exact absurd new (Nat.ne_of_lt old)

/-- What is left to close is closed, and then the document is opened. -/
theorem retireEach_reveals {t : Session} (spares : s.Spares t path m.name)
    (named : Text.sameAscii f.widgetName f.name = true) (listed : s.Listed)
    (bound : ∀ b ∈ s.manager.bindings, b.context < s.contexts.length)
    (bindings : t.manager.bindings ⊆ s.manager.bindings)
    (found : ∀ b ∈ t.manager.bindings, ∃ x, t.widget? b.widget = some x)
    (shown : t.shownBy path m.name f = s.shownBy path m.name f) (hint : Option OpenHint)
    {stage : Stage} (opens : stage.opensWith path f = true) (bind : stage.isToBind = false)
    (closing : List Tracked) :
    RevealStep path f m s stage (Manager.retireEach t closing (.open path f m hint)) := by
  cases closing with
  | nil => exact openNow_reveals spares named listed bound bindings found shown hint opens bind
  | cons x rest =>
    exact .goesOn (.closing x rest hint) shown (isToMake_of_opensWith opens).symm bind.symm

/-- **Every step of a call that reveals a document** is one of these. -/
theorem Reveals.step {stage : Stage} (reveals : stage.Reveals path f m s)
    (live : s.manager.disposed = false) (named : Text.sameAscii f.widgetName f.name = true)
    (listed : s.Listed) (bound : ∀ b ∈ s.manager.bindings, b.context < s.contexts.length)
    (made : ∀ x ∈ s.manager.tracked, s.Made x)
    (apart : ∀ first rest after, stage = .closing first rest after → s.Made first ∧
      ∀ x ∈ s.manager.tracked, x.context ≠ first.context) (answer : stage.need.Answer) :
    RevealStep path f m s stage (stage.resume s answer) := by
  cases reveals with
  | finding hint means =>
    cases here : s.openFor? path m.name with
    | some u =>
      have found := here
      unfold Session.openFor? at found
      simp only [Stage.resume, found]
      exact .goesOn (.searching hint means here) rfl rfl rfl
    | none =>
      have missing := here
      unfold Session.openFor? at missing
      simp only [Stage.resume, missing]
      exact .misses (.called hint means) (Session.shownBy_of_none here) ⟨rfl, rfl⟩ ⟨rfl, rfl⟩
  | @searching name hint means u here =>
    have first := List.head?_filter (p := Manager.shows s u.context f) (l := s.manager.bindings)
    have shown := Session.shownBy_of_openFor? (f := f) here
    cases found : s.manager.bindings.find? (Manager.shows s u.context f) with
    | some b =>
      obtain ⟨others, split⟩ := List.head?_eq_some_iff.mp (first.trans found)
      simp only [Stage.resume, found]
      exact .finds (shown.trans split) rfl rfl
    | none =>
      have none := List.head?_eq_none_iff.mp (first.trans found)
      simp only [Stage.resume, found]
      exact .misses (.called hint means) (shown.trans none) ⟨rfl, rfl⟩ ⟨rfl, rfl⟩
  | called hint means =>
    simp only [Stage.resume, live, Bool.false_eq_true, if_false, Manager.begin, means]
    exact .goesOn (.updating hint) rfl rfl rfl
  | updating hint =>
    have spares := Session.Spares.setTracked s path m.name
    have shown := spares.openFor
    simp only [Stage.resume, Manager.update, Manager.retireWhere_eq]
    have opens : (Stage.updating (.open path f m hint)).opensWith path f = true := by
      simp [opensWith]
    refine retireEach_reveals spares named listed bound (List.Subset.refl _) listed.found ?_ hint
      opens rfl _
    rw [Session.shownBy, shown]
    rfl
  | closing first rest hint =>
    obtain ⟨madeFirst, away⟩ := apart first rest _ rfl
    have spares := Session.Spares.retireContext made madeFirst away path m.name
    have kept := congrArg Manager.bindings (Session.manager_retireContext s first)
    have opens : (Stage.closing first rest (.open path f m hint)).opensWith path f = true := by
      simp [opensWith]
    refine retireEach_reveals spares named listed bound ?_ ?_ ?_ hint opens rfl rest
    · rw [kept]
      exact List.filter_subset_self _
    · intro b hb
      rw [kept] at hb
      obtain ⟨x, found⟩ := listed.found b (List.mem_filter.mp hb).1
      rw [Session.widget?_retireContext, found]
      split <;> exact ⟨_, rfl⟩
    · exact Session.shownBy_retireContext listed away spares.openFor
  | @binding w u here shows =>
    have binds : (Stage.binding w u.context).isToMake = false ∧
        (Stage.binding w u.context).isToBind = true := ⟨rfl, rfl⟩
    exact .binds (Session.shownBy_bind here shows) binds

end Stage

end Folio
