/-
# What opening a document makes of a session

A call that opens a document first closes those contexts of it whose first load has failed, one
after the other.  Then, in one step, it looks for the context in which the document is open; if
there is none it makes one, which is to be loaded; and it makes a widget for it, which is still to
be bound (`Stage.Opens`).

What is in use and has not failed is spared by all of this (`Session.Spares`), and what the document
is open in afterwards is what it was open in before, or else the context that was made.
-/
import Folio.Proofs.Manager.OneContext
import Folio.Proofs.Manager.Upkeep
import Folio.Proofs.Session.FirstLoads
import Mathlib.Data.List.Find

namespace Folio

/-! ## 1. What a document is open in -/

namespace Session

variable {s t u : Session} {path model : String}

theorem mem_of_openFor? {x : Tracked} (h : s.openFor? path model = some x) :
    x ∈ s.manager.tracked := List.mem_of_find?_eq_some h

theorem isOpenFor_of_openFor? {x : Tracked} (h : s.openFor? path model = some x) :
    s.isOpenFor x path model = true := (List.find?_eq_some_iff_append.mp h).1

/-- What a document is open in is live, at its path, and of its model factory. -/
theorem of_openFor? {x : Tracked} (h : s.openFor? path model = some x) :
    (s.context x.context).isDisposed = false ∧ (s.context x.context).path = path ∧
      (s.context x.context).hasFailed = false := by
  have isOpen := isOpenFor_of_openFor? h
  simp only [isOpenFor, standsFor, Bool.and_eq_true, Bool.not_eq_true', beq_iff_eq] at isOpen
  exact ⟨isOpen.1.1.1, isOpen.1.1.2, isOpen.2⟩

/-- Names that differ in case only are of the same model factory. -/
theorem standsFor_sameAscii {other : String} (same : Text.sameAscii other model = true) :
    (fun x => s.standsFor x path other) = fun x => s.standsFor x path model := by
  have lower : Text.lowerAscii other = Text.lowerAscii model := beq_iff_eq.mp same
  unfold standsFor Text.sameAscii
  rw [lower]

theorem openFor?_sameAscii (s : Session) (path : String) {other : String}
    (same : Text.sameAscii other model = true) :
    s.openFor? path other = s.openFor? path model := by
  have stands (x : Tracked) : s.standsFor x path other = s.standsFor x path model :=
    congrFun (standsFor_sameAscii same) x
  simp only [openFor?, isOpenFor, stands]

/-- **What a document is open in stays**, if nothing comes to be open for it and that stays open for
it. -/
theorem openFor?_of_tracked (tracked : t.manager.tracked = s.manager.tracked)
    (fewer : ∀ x ∈ s.manager.tracked, t.isOpenFor x path model = true →
      s.isOpenFor x path model = true)
    (stays : ∀ x, s.openFor? path model = some x → t.isOpenFor x path model = true) :
    t.openFor? path model = s.openFor? path model := by
  cases found : s.openFor? path model with
  | none =>
    rw [openFor?, List.find?_eq_none] at found ⊢
    rw [tracked]
    exact fun x hx there => found x hx (fewer x hx there)
  | some x =>
    have still := stays x found
    obtain ⟨-, before, after, split, others⟩ := List.find?_eq_some_iff_append.mp found
    refine List.find?_eq_some_iff_append.mpr ⟨still, before, after, tracked.trans split, ?_⟩
    intro y hy
    have listed : y ∈ s.manager.tracked := split ▸ List.mem_append_left _ hy
    have closed := others y hy
    rw [Bool.not_eq_true'] at closed ⊢
    rw [Bool.eq_false_iff] at closed ⊢
    exact fun there => closed (fewer y listed there)

/-! ## 2. What is spared -/

/-- **What is in use is spared**, but for contexts of a document whose first load has failed: those
may go out of use, and are closed. -/
structure Spares (s t : Session) (path model : String) : Prop where
  tracked : t.manager.tracked.Sublist s.manager.tracked
  failed : ∀ x ∈ s.manager.tracked, x ∉ t.manager.tracked →
    s.standsFor x path model = true ∧ (s.context x.context).hasFailed = true
  context : ∀ x ∈ t.manager.tracked, t.context x.context = s.context x.context
  coordinator : ∀ x ∈ t.manager.tracked, t.coordinator x.coordinator = s.coordinator x.coordinator
  bindings : ∀ x ∈ t.manager.tracked, ∀ b : Binding, b.context = x.context →
    (b ∈ t.manager.bindings ↔ b ∈ s.manager.bindings)
  openFor : t.openFor? path model = s.openFor? path model
  started : t.started = s.started
  rested : s.Rested t
  advances : s.Advances t

namespace Spares

theorem refl (s : Session) (path model : String) : s.Spares s path model :=
  ⟨List.Sublist.refl _, fun _ hx gone => absurd hx gone, fun _ _ => rfl, fun _ _ => rfl,
    fun _ _ _ _ => Iff.rfl, rfl, rfl, .refl s, .refl s⟩

/-- Failed contexts go out of use. -/
theorem setTracked (s : Session) (path model : String) :
    s.Spares (s.setTracked (s.manager.tracked.filter fun x =>
      !(s.standsFor x path model && (s.context x.context).hasFailed))) path model where
  tracked := List.filter_sublist
  failed x hx gone := by
    have fails : (s.standsFor x path model && (s.context x.context).hasFailed) = true := by
      by_contra stays
      rw [Bool.not_eq_true] at stays
      exact gone (List.mem_filter.mpr ⟨hx, by rw [stays]; rfl⟩)
    exact Bool.and_eq_true_iff.mp fails
  context _ _ := rfl
  coordinator _ _ := rfl
  bindings _ _ _ _ := Iff.rfl
  openFor := by
    show List.find? _ (List.filter _ _) = List.find? _ _
    rw [List.find?_filter]
    refine List.find?_congr fun x _ => ?_
    -- a context that is open for the document has not failed
    have same : (s.setTracked (s.manager.tracked.filter fun x =>
        !(s.standsFor x path model && (s.context x.context).hasFailed))).isOpenFor x path model =
          s.isOpenFor x path model := rfl
    rw [same, isOpenFor]
    cases s.standsFor x path model <;> cases (s.context x.context).hasFailed <;> rfl
  started := rfl
  rested := .setTracked List.filter_sublist.subset
  advances := .setTracked s _

/-- **A context is closed** that is not in use. -/
theorem retireContext {x : Tracked} (made : ∀ y ∈ s.manager.tracked, s.Made y) (madeX : s.Made x)
    (apart : ∀ y ∈ s.manager.tracked, y.context ≠ x.context) (path model : String) :
    s.Spares (s.retireContext x) path model := by
  have manager := manager_retireContext s x
  have tracked : (s.retireContext x).manager.tracked = s.manager.tracked := by rw [manager]
  have context (y : Tracked) (hy : y ∈ s.manager.tracked) :
      (s.retireContext x).context y.context = s.context y.context :=
    context_retireContext_of_ne (apart y hy)
  have isOpenFor (y : Tracked) (hy : y ∈ s.manager.tracked) :
      (s.retireContext x).isOpenFor y path model = s.isOpenFor y path model := by
    rw [Session.isOpenFor, standsFor, context y hy]
    rfl
  refine ⟨tracked ▸ List.Sublist.refl _, fun y hy gone => absurd (tracked ▸ hy) gone, ?_, ?_, ?_,
    ?_, started_retireContext s x, .retireContext s x, .retireContext s x⟩
  · exact fun y hy => context y (tracked ▸ hy)
  · intro y hy
    have there : y ∈ s.manager.tracked := tracked ▸ hy
    refine coordinator_retireContext_of_ne s fun same => apart y there ?_
    rw [← (made y there).owner, same, madeX.owner]
  · intro y hy b shows
    have other : b.context ≠ x.context := shows ▸ apart y (tracked ▸ hy)
    rw [manager, List.mem_filter]
    exact and_iff_left (bne_iff_ne.mpr other)
  · refine openFor?_of_tracked tracked (fun y hy still => ?_) fun y here => ?_
    · rwa [← isOpenFor y hy]
    · rw [isOpenFor y (mem_of_openFor? here)]
      exact isOpenFor_of_openFor? here

/-- A widget is made. -/
theorem newWidget (h : s.Spares t path model) (factory : WidgetFactory) (c : ContextId)
    (hint : Option OpenHint) : s.Spares (t.newWidget factory c hint).1 path model :=
  { h with
    rested := h.rested.trans (.of_eq (List.Subset.refl _) rfl rfl rfl)
    advances := h.advances.trans (.of_eq rfl rfl) }

/-- What a document is open in stays in use. -/
theorem mem (h : s.Spares t path model) {x : Tracked} (here : s.openFor? path model = some x) :
    x ∈ t.manager.tracked := mem_of_openFor? (h.openFor.trans here)

end Spares

/-- **A document gets a context** of its own, which is to be loaded. -/
structure Gets (s t : Session) (path model : String) : Prop where
  openFor : t.openFor? path model = some ⟨s.contexts.length, s.coordinators.length⟩
  contexts : t.contexts.length = s.contexts.length + 1
  started : t.started = s.started ++ [.load s.coordinators.length false]

/-- **A document that is open nowhere** gets the context that is made for it. -/
theorem gets_withTracked (made : ∀ x ∈ s.manager.tracked, x.context < s.contexts.length)
    (nowhere : s.openFor? path model = none) {factory : ModelFactory}
    (same : Text.sameAscii factory.name model = true) :
    s.Gets (s.withTracked path factory false) path model where
  openFor := by
    have older : s.manager.tracked.find? (fun x =>
        (s.withTracked path factory false).isOpenFor x path model) = none := by
      refine Eq.trans (List.find?_congr fun x hx => ?_) nowhere
      have context : (s.withTracked path factory false).context x.context = s.context x.context :=
        context_newTracked_of_lt path factory false (made x hx)
      rw [isOpenFor, standsFor, context]
      rfl
    have new : (s.withTracked path factory false).context s.contexts.length =
        { path, modelFactory := factory.name, contentType := factory.contentType,
          model := factory.build } := context_newTracked s path factory false
    have isOpen : (s.withTracked path factory false).isOpenFor
        ⟨s.contexts.length, s.coordinators.length⟩ path model = true := by
      rw [isOpenFor, standsFor, new]
      simp [Context.isDisposed, Context.hasFailed, same]
    show List.find? _ (s.manager.tracked ++ [_]) = _
    rw [List.find?_append, older, Option.none_or, List.find?_singleton, if_pos isOpen]
  contexts := List.length_append
  started := rfl

end Session

/-! ## 3. Steps of the call -/

/-- A document is opened when all is closed. -/
def AfterClosing.isOpening (path model : String) : AfterClosing → Bool
  | .open p _ factory _ => p == path && Text.sameAscii factory.name model
  | _ => false

/-- **The call is about to open a document**: it waits for the contexts, or closes some that have
failed. -/
def Stage.isOpening (path model : String) : Stage → Bool
  | .updating (.open p _ factory _) => p == path && Text.sameAscii factory.name model
  | .closing _ _ after => after.isOpening path model
  | _ => false

/-- **What a step of a call makes that is about to open a document.** -/
inductive Stage.Opens (s : Session) (path model : String) : Manager.Step → Prop
  | evicts {t : Session} (spares : s.Spares t path model) {q : Stage}
      (opening : q.isOpening path model = true) : Opens s path model (t, .inl q)
  | shows {t : Session} (spares : s.Spares t path model) {x : Tracked}
      (here : t.openFor? path model = some x) (widget : WidgetFactory) (hint : Option OpenHint) :
      Opens s path model ((t.newWidget widget x.context hint).1,
        .inl (.binding (.issued t.widgets.length) x.context))
  | loads {t : Session} (spares : s.Spares t path model)
      (nowhere : t.openFor? path model = none) {factory : ModelFactory}
      (same : Text.sameAscii factory.name model = true) (widget : WidgetFactory)
      (hint : Option OpenHint) :
      Opens s path model (((t.withTracked path factory false).newWidget widget t.contexts.length
        hint).1, .inl (.binding (.issued t.widgets.length) t.contexts.length))

namespace Stage

variable {s : Session} {path model : String}

/-- All is closed, and the document is opened. -/
theorem opens_afterClosing {t : Session} (spares : s.Spares t path model) {after : AfterClosing}
    (opening : after.isOpening path model = true) :
    Opens s path model (Manager.afterClosing t after) := by
  cases after with
  | «open» p widget factory hint =>
    obtain ⟨samePath, same⟩ := Bool.and_eq_true_iff.mp opening
    obtain rfl : p = path := beq_iff_eq.mp samePath
    have found := Session.openFor?_sameAscii t p same
    unfold Session.openFor? at found
    simp only [Manager.afterClosing, Manager.openNow, found]
    split
    · next x here => exact .shows spares here widget hint
    · next nowhere => exact .loads spares nowhere same widget hint
  | _ => cases opening

/-- **Every step of a call that is about to open a document** is one of these. -/
theorem opens_resume {stage : Stage} (opening : stage.isOpening path model = true)
    (made : ∀ x ∈ s.manager.tracked, s.Made x)
    (apart : ∀ first rest after, stage = .closing first rest after → s.Made first ∧
      ∀ x ∈ s.manager.tracked, x.context ≠ first.context) (answer : stage.need.Answer) :
    Opens s path model (stage.resume s answer) := by
  cases stage with
  | updating update =>
    cases update with
    | «open» p widget factory hint =>
      obtain ⟨samePath, same⟩ := Bool.and_eq_true_iff.mp opening
      obtain rfl : p = path := beq_iff_eq.mp samePath
      have stands (x : Tracked) : s.standsFor x p factory.name = s.standsFor x p model :=
        congrFun (Session.standsFor_sameAscii same) x
      simp only [resume, Manager.update, Manager.retireWhere_eq, stands]
      cases s.manager.tracked.filter fun x =>
          s.standsFor x p model && (s.context x.context).hasFailed with
      | nil =>
        have opening : (AfterClosing.open p widget factory hint).isOpening p model = true := opening
        exact opens_afterClosing (.setTracked s p model) opening
      | cons x rest => exact .evicts (.setTracked s p model) opening
    | _ => cases opening
  | closing first rest after =>
    obtain ⟨madeFirst, away⟩ := apart first rest after rfl
    have spares := Session.Spares.retireContext made madeFirst away path model
    cases rest with
    | nil => exact opens_afterClosing spares opening
    | cons x rest => exact .evicts spares opening
  | _ => cases opening

/-- **A call that is about to open a document** does not end before it has bound a widget. -/
theorem exists_next_of_isOpening {stage : Stage} (opening : stage.isOpening path model = true)
    (s : Session) (answer : stage.need.Answer) : ∃ q, (stage.resume s answer).2 = .inl q := by
  have opened (s : Session) (closing : List Tracked) {after : AfterClosing}
      (opening : after.isOpening path model = true) :
      ∃ q, (Manager.retireEach s closing after).2 = .inl q := by
    cases closing with
    | cons x rest => exact ⟨_, rfl⟩
    | nil =>
      cases after with
      | «open» p widget factory hint =>
        simp only [Manager.retireEach, Manager.afterClosing, Manager.openNow]
        split <;> exact ⟨_, rfl⟩
      | _ => cases opening
  cases stage with
  | updating update =>
    cases update with
    | «open» p widget factory hint =>
      have opens : (AfterClosing.open p widget factory hint).isOpening path model = true := opening
      exact opened _ _ opens
    | _ => cases opening
  | closing first rest after => exact opened _ _ opening
  | _ => cases opening

/-- **A call finds the context in which the document is open**, and spares what is in use. -/
theorem Opens.finds {step : Manager.Step} (opens : Opens s path model step) {x : Tracked}
    (here : s.openFor? path model = some x) :
    s.Spares step.1 path model ∧ ∃ q, step.2 = .inl q ∧
      (q.isOpening path model = true ∨ ∃ w, q = .binding w x.context) := by
  cases opens with
  | evicts spares opening => exact ⟨spares, _, rfl, .inl opening⟩
  | shows spares there widget hint =>
    obtain rfl := Option.some.inj ((there.symm.trans spares.openFor).trans here)
    exact ⟨spares.newWidget widget _ hint, _, rfl, .inr ⟨_, rfl⟩⟩
  | loads spares nowhere same widget hint =>
    cases (nowhere.symm.trans spares.openFor).trans here

/-- **A call that finds none makes one**, and before that it spares what is in use. -/
theorem Opens.misses {step : Manager.Step} (opens : Opens s path model step)
    (made : ∀ x ∈ s.manager.tracked, x.context < s.contexts.length)
    (nowhere : s.openFor? path model = none) :
    (s.Spares step.1 path model ∧ ∃ q, step.2 = .inl q ∧ q.isOpening path model = true) ∨
      (s.Gets step.1 path model ∧ ∃ w, step.2 = .inl (.binding w s.contexts.length)) := by
  cases opens with
  | evicts spares opening => exact .inl ⟨spares, _, rfl, opening⟩
  | shows spares here widget hint => cases (here.symm.trans spares.openFor).trans nowhere
  | @loads t spares still factory same widget hint =>
    have contexts : t.contexts.length = s.contexts.length := spares.rested.contexts
    have gets : t.Gets (t.withTracked path factory false) path model := by
      refine Session.gets_withTracked (fun x hx => ?_) still same
      exact contexts ▸ made x (spares.tracked.subset hx)
    refine .inr ⟨⟨?_, ?_, ?_⟩, .issued t.widgets.length, by rw [contexts]⟩
    · exact gets.openFor.trans (by rw [contexts, spares.rested.coordinators])
    · exact gets.contexts.trans (by rw [contexts])
    · exact gets.started.trans (by rw [spares.started, spares.rested.coordinators])

/-- **A document of which no context has failed**, and which is open: the call adds a widget, and
nothing else. -/
theorem resume_open {x : Tracked} (here : s.openFor? path model = some x)
    (sound : ∀ y ∈ s.manager.tracked, s.standsFor y path model = true →
      (s.context y.context).hasFailed = false) {factory : ModelFactory}
    (same : Text.sameAscii factory.name model = true) (widget : WidgetFactory)
    (hint : Option OpenHint) :
    (Stage.updating (.open path widget factory hint)).resume s () =
      ((s.newWidget widget x.context hint).1,
        .inl (.binding (.issued s.widgets.length) x.context)) := by
  have found := (Session.openFor?_sameAscii s path same).trans here
  have stands (y : Tracked) : s.standsFor y path factory.name = s.standsFor y path model :=
    congrFun (Session.standsFor_sameAscii same) y
  have none : s.manager.tracked.filter (fun y =>
      s.standsFor y path model && (s.context y.context).hasFailed) = [] := by
    refine List.filter_eq_nil_iff.mpr fun y hy => ?_
    rw [Bool.and_eq_true, not_and, Bool.not_eq_true]
    exact sound y hy
  have all : s.manager.tracked.filter (fun y =>
      !(s.standsFor y path model && (s.context y.context).hasFailed)) = s.manager.tracked := by
    refine List.filter_eq_self.mpr fun y hy => ?_
    rw [Bool.not_eq_true', Bool.eq_false_iff]
    exact List.filter_eq_nil_iff.mp none y hy
  have kept : s.setTracked s.manager.tracked = s := rfl
  unfold Session.openFor? at found
  simp only [resume, Manager.update, Manager.retireWhere_eq, stands, none, all, kept,
    Manager.retireEach, Manager.afterClosing, Manager.openNow, found]
  rfl

end Stage

end Folio
