/-
# What a call that moves a file does to a session

The call looks at the contexts in use twice: before it asks the store, to see which model factories
come to the target and whether changes there would be lost; and when the store has moved the file,
to take out of use what is replaced.  Then it closes that, one context after the other, and last the
contexts at the source follow.

`Relocation.Stands` says how far the call has come, and `Relocation.Cleared` what it has made of the
session with which it began.  Its own steps lead from one such place to the next
(`Relocation.Stands.goes`), and what others do in between changes nothing about it, if the contexts
at the two paths stand still (`Relocation.Cleared.leaves`).  So the call ends in one of four ways
(`Relocation.Outcome`).
-/
import Folio.Proofs.Manager.RemoveFile
import Folio.Proofs.Manager.Standstill
import Folio.Proofs.Manager.Upkeep

namespace Folio

namespace Session

/-! ## 1. What closing a context makes of it and its widgets -/

theorem widget?_retireEach : ∀ (closing : List Binding) (s : Session) (w : WidgetId),
    (closing.foldl (fun s b => s.retireWidget b.widget) s).widget? w =
      if w ∈ closing.map (·.widget) then (s.widget? w).map Widget.retired else s.widget? w
  | [], s, w => rfl
  | b :: rest, s, w => by
    have first : (s.retireWidget b.widget).widget? w =
        if w = b.widget then (s.widget? w).map Widget.retired else s.widget? w := by
      have told : (s.retireWidget b.widget).widget? w = (s.disposeWidget b.widget).widget? w := by
        cases w <;> rfl
      rw [told]
      split
      · next same =>
        subst same
        exact s.widget?_disposeWidget_self b.widget
      · next other => exact widget?_disposeWidget_of_ne other
    rw [List.foldl_cons, widget?_retireEach rest, first, List.map_cons]
    by_cases same : w = b.widget
    · simp [same, Function.comp_def]
    · simp [same]

/-- **The widgets of a context that is closed** are disposed, and no others. -/
theorem widget?_retireContext (s : Session) (t : Tracked) (w : WidgetId) :
    (s.retireContext t).widget? w =
      if w ∈ (s.manager.bindings.filter (·.context == t.context)).map (·.widget) then
        (s.widget? w).map Widget.retired
      else s.widget? w := by
  have withdrawn : (s.retireContext t).widget? w = (s.withdraw t.context).widget? w := by
    rw [retireContext_eq]
    cases w <;> rfl
  have before (bindings : List Binding) : (s.setBindings bindings).widget? w = s.widget? w := by
    cases w <;> rfl
  rw [withdrawn, withdraw, widget?_retireEach, before]

/-- A context that is closed is disposed. -/
theorem context_retireContext {s : Session} {t : Tracked} (made : t.context < s.contexts.length) :
    (s.retireContext t).context t.context = (s.context t.context).dispose := by
  have same : ((s.withdraw t.context).stopCoordinator t.coordinator).contexts = s.contexts :=
    contexts_withdraw s t.context
  rw [retireContext_eq, context_setContext _ (by rwa [same]), context, same, context]

/-- **What is in use was made**, and no context and no widget is in use twice. -/
structure Listed (s : Session) : Prop where
  made : ∀ t ∈ s.manager.tracked, t.context < s.contexts.length
  nodup : (s.manager.tracked.map (·.context)).Nodup
  once : (s.manager.bindings.map (·.widget)).Nodup
  found : ∀ b ∈ s.manager.bindings, ∃ x, s.widget? b.widget = some x

end Session

/-- What is in use is listed, in every run. -/
theorem Traffic.listed_run (config : Settings) (store : MemoryStore) (moves : List Move) :
    ((start (.create config) store).run moves).session.Listed := by
  obtain ⟨-, -, _, ⟨widgets, within, rfl⟩, ⟨⟨roster, ledger⟩, -⟩, -⟩ :=
    twinBooks_run config store moves
  have contexts := roster.nodup
  have once := ledger.nodup
  rw [List.map_append] at contexts
  rw [Session.shown, List.map_append] at once
  refine ⟨fun t ht => (roster.made t (List.mem_append_left _ ht)).context,
    (List.nodup_append.mp contexts).1, (List.nodup_append.mp once).1, fun b hb => ?_⟩
  -- the twin has as many widgets as the session
  obtain ⟨x, there, -⟩ :=
    (ledger.inUse _ (List.mem_map_of_mem (List.mem_append_left _ hb))).widget
  cases hw : b.widget with
  | foreign =>
    rw [hw] at there
    cases there
  | issued n =>
    rw [hw] at there
    have made := (List.getElem?_eq_some_iff.mp there).1
    rw [show (Session.withWidgets _ widgets).widgets.length = _ from within.length] at made
    exact ⟨_, List.getElem?_eq_getElem made⟩

/-- What is in use shows a context that was made. -/
theorem Traffic.bound_run (config : Settings) (store : MemoryStore) (moves : List Move) :
    let s := ((start (.create config) store).run moves).session
    ∀ b ∈ s.manager.bindings, b.context < s.contexts.length := by
  intro s b hb
  obtain ⟨-, -, _, ⟨widgets, -, rfl⟩, ⟨⟨roster, -⟩, -⟩, -⟩ := twinBooks_run config store moves
  obtain ⟨u, hu, same⟩ := List.mem_map.mp (roster.bound b (List.mem_append_left _ hb))
  exact same ▸ (roster.made u hu).context

namespace Manager

variable (s : Session) (source target : String)

/-- Contexts that follow a file take no widget with them. -/
theorem widget?_followAll (w : WidgetId) :
    (followAll s source target).widget? w = s.widget? w :=
  followAll_keeps (·.widget? w) (fun _ _ _ => by cases w <;> rfl) s source target

theorem context_followAll {s : Session} {source target : String} {c : ContextId}
    (made : c < s.contexts.length) : (followAll s source target).context c =
      if c ∈ s.manager.tracked.map (·.context) then
        Session.followed source target (s.context c)
      else s.context c :=
  Session.context_followEach source target s.manager.tracked s c made

end Manager

namespace Relocation

variable {r : Relocation} {s t u : Session}

/-! ## 2. What is replaced -/

/-- **A context is replaced** by a live context in use at the source: it is live as well, stands for
the target, and has the same model factory. -/
def replaces (r : Relocation) (s : Session) (x : Tracked) : Bool :=
  s.manager.tracked.any fun v =>
    s.isAt v r.source && s.standsFor x r.target (s.context v.context).modelFactory

theorem replaces_iff {x : Tracked} : r.replaces s x = true ↔
    ∃ v ∈ s.manager.tracked, s.isAt v r.source = true ∧
      s.standsFor x r.target (s.context v.context).modelFactory = true := by
  simp [replaces]

/-- The call decides so by the model factories that it has found at the source. -/
theorem isDisplaced_modelsAt (x : Tracked) :
    Manager.isDisplaced s r.target (Manager.modelsAt s r.source) x = r.replaces s x := by
  simp only [Manager.isDisplaced, Manager.modelsAt, List.any_map, List.any_filter, replaces,
    Function.comp_def]

/-- A context at the source is not replaced. -/
theorem replaces_of_isAt (other : r.source ≠ r.target) {x : Tracked}
    (here : s.isAt x r.source = true) : r.replaces s x = false := by
  rw [Bool.eq_false_iff]
  intro gives
  obtain ⟨v, -, -, stands⟩ := replaces_iff.mp gives
  simp only [Session.standsFor, Session.isAt, Bool.and_eq_true, beq_iff_eq] at here stands
  exact other (here.2.symm.trans stands.1.2)

/-- The contexts that are replaced. -/
def replaced (r : Relocation) (s : Session) : List ContextId :=
  (s.manager.tracked.filter (r.replaces s)).map (·.context)

/-- **The contexts in use at the two paths stand still.** -/
def Covers (r : Relocation) (s : Session) : Prop :=
  ∀ x ∈ s.manager.tracked, s.isAt x r.source = true ∨ s.isAt x r.target = true →
    r.still x.context = true

theorem concerns_source : r.concerns r.source = true := by simp [concerns]

theorem concerns_target : r.concerns r.target = true := by simp [concerns]

/-- A context that is away is at neither path. -/
theorem isAt_of_away {x : Tracked} (away : (s.context x.context).IsAway r) {path : String}
    (concerned : r.concerns path = true) : s.isAt x path = false := by
  rw [Bool.eq_false_iff]
  intro here
  simp only [Session.isAt, Bool.and_eq_true, Bool.not_eq_true', beq_iff_eq] at here
  rcases away with closed | elsewhere
  · exact absurd (here.1.symm.trans closed) (by decide)
  · rw [here.2, concerned] at elsewhere
    cases elsewhere

theorem Covers.away (covers : r.Covers s) {x : Tracked} (hx : x ∈ s.manager.tracked)
    (loose : r.still x.context = false) : (s.context x.context).IsAway r := by
  by_cases closed : (s.context x.context).isDisposed = true
  · exact .inl closed
  · right
    rw [Bool.eq_false_iff]
    intro here
    have live : (s.context x.context).isDisposed = false := Bool.eq_false_iff.mpr closed
    have still := covers x hx (by simpa [Session.isAt, live, concerns] using here)
    exact absurd (loose.symm.trans still) (by decide)

/-- What is at one of the paths stands still. -/
theorem Covers.still_of_replaces (covers : r.Covers s) {x : Tracked} (hx : x ∈ s.manager.tracked)
    (gives : r.replaces s x = true) : r.still x.context = true := by
  obtain ⟨v, -, -, stands⟩ := replaces_iff.mp gives
  exact covers x hx (.inr (Bool.and_eq_true_iff.mp stands).1)

/-! ## 3. How much of the work is done -/

/-- **What has been done so far** since a session: these contexts are still in use, those have been
closed together with their widgets, and whatever stands still is otherwise as it was. -/
structure Cleared (r : Relocation) (s : Session) (kept : List Tracked) (closed : List ContextId)
    (t : Session) : Prop where
  tracked : t.manager.tracked = kept
  bindings : t.manager.bindings = s.manager.bindings.filter fun b => b.context ∉ closed
  length : s.contexts.length ≤ t.contexts.length
  context : ∀ c < s.contexts.length, r.still c = true →
    t.context c = if c ∈ closed then (s.context c).dispose else s.context c
  away : ∀ x ∈ s.manager.tracked, r.still x.context = false → (t.context x.context).IsAway r
  widget : ∀ b ∈ s.manager.bindings, r.still b.context = true →
    t.widget? b.widget =
      if b.context ∈ closed then (s.widget? b.widget).map Widget.retired else s.widget? b.widget

namespace Cleared

variable {kept : List Tracked} {closed : List ContextId}

/-- In the beginning nothing has been done. -/
theorem start (covers : r.Covers s) : r.Cleared s s.manager.tracked [] s where
  tracked := rfl
  bindings := by simp
  length := Nat.le_refl _
  context _ _ _ := by simp
  away _ hx loose := covers.away hx loose
  widget _ _ _ := by simp

/-- **Others do nothing to it**, if they leave alone what stands still. -/
theorem leaves (cleared : r.Cleared s kept closed t) (listed : s.Listed) (h : r.LeavesStill t u) :
    r.Cleared s kept closed u where
  tracked := h.tracked.trans cleared.tracked
  bindings := h.bindings.trans cleared.bindings
  length := Nat.le_trans cleared.length h.length
  context c made still := by
    rw [h.context c (Nat.lt_of_lt_of_le made cleared.length) still]
    exact cleared.context c made still
  away x hx loose :=
    h.away x.context (Nat.lt_of_lt_of_le (listed.made x hx) cleared.length) loose
      (cleared.away x hx loose)
  widget b hb still := by
    have before := cleared.widget b hb still
    rcases h.widget b.widget with same | ⟨retired, unbound⟩
    · exact same.trans before
    · by_cases gone : b.context ∈ closed
      · rw [retired, before, if_pos gone]
        simp [Function.comp_def]
      · -- the widget is in use, so nobody else disposes it
        have bound : b ∈ t.manager.bindings := by
          rw [cleared.bindings]
          exact List.mem_filter.mpr ⟨hb, by simpa using gone⟩
        exact absurd (still.symm.trans (unbound b bound rfl)) (by decide)

/-- Contexts are taken out of use. -/
theorem setTracked (cleared : r.Cleared s kept closed t) (keep : List Tracked) :
    r.Cleared s keep closed (t.setTracked keep) :=
  ⟨rfl, cleared.bindings, cleared.length, cleared.context, cleared.away,
    fun b hb still => by
      have before := cleared.widget b hb still
      cases hw : b.widget <;> rw [hw] at before <;> exact before⟩

/-- **A widget shows the context** that it was bound to, unless that is closed. -/
theorem shows_iff (cleared : r.Cleared s kept closed t) (listed : s.Listed) {c : ContextId}
    (fresh : c ∉ closed) {b : Binding} (hb : b ∈ s.manager.bindings) :
    b.widget ∈ (t.manager.bindings.filter (·.context == c)).map (·.widget) ↔ b.context = c := by
  rw [cleared.bindings]
  constructor
  · intro there
    obtain ⟨d, hd, same⟩ := List.mem_map.mp there
    obtain ⟨hd, this⟩ := List.mem_filter.mp hd
    rw [← List.inj_on_of_nodup_map listed.once (List.mem_of_mem_filter hd) hb same]
    exact beq_iff_eq.mp this
  · intro this
    refine List.mem_map.mpr ⟨b, List.mem_filter.mpr ⟨List.mem_filter.mpr ⟨hb, ?_⟩, ?_⟩, rfl⟩
    · simpa [this] using fresh
    · exact beq_iff_eq.mpr this

/-- **A context is closed** that is no longer in use. -/
theorem retire (cleared : r.Cleared s kept closed t) (listed : s.Listed) {x : Tracked}
    (hx : x ∈ s.manager.tracked) (still : r.still x.context = true) (fresh : x.context ∉ closed) :
    r.Cleared s kept (closed ++ [x.context]) (t.retireContext x) := by
  have manager := Session.manager_retireContext t x
  have made := Nat.lt_of_lt_of_le (listed.made x hx) cleared.length
  refine ⟨?_, ?_, ?_, fun c madeC stillC => ?_, fun y hy loose => ?_, fun b hb stillB => ?_⟩
  · rw [manager]
    exact cleared.tracked
  · rw [manager]
    show t.manager.bindings.filter (·.context != x.context) = _
    rw [cleared.bindings, List.filter_filter]
    refine List.filter_congr fun b _ => ?_
    by_cases h : b.context = x.context <;> simp [h]
  · rw [Session.contexts_length_retireContext]
    exact cleared.length
  · by_cases this : c = x.context
    · subst this
      have before := cleared.context x.context madeC stillC
      rw [if_neg fresh] at before
      rw [Session.context_retireContext made, before, if_pos (by simp)]
    · rw [Session.context_retireContext_of_ne this, cleared.context c madeC stillC]
      simp [this]
  · have other : y.context ≠ x.context := by
      intro same
      rw [same, still] at loose
      cases loose
    rw [Session.context_retireContext_of_ne other]
    exact cleared.away y hy loose
  · have shows := cleared.shows_iff listed fresh hb
    rw [Session.widget?_retireContext, cleared.widget b hb stillB]
    by_cases this : b.context = x.context
    · have freshB : b.context ∉ closed := by rwa [this]
      rw [if_pos (shows.mpr this), if_neg freshB, if_pos (by simp [this])]
    · rw [if_neg fun there => this (shows.mp there)]
      simp [this]

/-- **When some of what is replaced is closed**, the next is closed. -/
theorem retire_next {closed rest : List Tracked} {x : Tracked}
    (cleared : r.Cleared s kept (closed.map (·.context)) t) (listed : s.Listed)
    (parts : s.manager.tracked.filter (r.replaces s) = closed ++ x :: rest)
    (still : r.still x.context = true) :
    r.Cleared s kept ((closed ++ [x]).map (·.context)) (t.retireContext x) := by
  have hx : x ∈ s.manager.tracked.filter (r.replaces s) := by simp [parts]
  have nodup : ((closed ++ x :: rest).map (·.context)).Nodup := by
    rw [← parts]
    exact listed.nodup.sublist (List.filter_sublist.map _)
  -- it is not among those that are closed already
  have fresh : x.context ∉ closed.map (·.context) := by
    rw [List.map_append, List.map_cons] at nodup
    exact fun there => (List.nodup_append.mp nodup).2.2 _ there _ List.mem_cons_self rfl
  rw [List.map_append]
  exact cleared.retire listed (List.mem_of_mem_filter hx) still fresh

/-! ## 4. What the call finds at the two paths -/

section Finds

variable {x : Tracked} (cleared : r.Cleared s kept closed t) (listed : s.Listed)
  (hx : x ∈ s.manager.tracked) (inUse : x.context ∉ closed)

include cleared listed hx inUse

/-- What stands still is as it was. -/
theorem context_eq (still : r.still x.context = true) :
    t.context x.context = s.context x.context := by
  rw [cleared.context _ (listed.made x hx) still, if_neg inUse]

/-- **It is at one of the paths** if it was there. -/
theorem isAt_eq (covers : r.Covers s) {path : String} (concerned : r.concerns path = true) :
    t.isAt x path = s.isAt x path := by
  cases still : r.still x.context with
  | true =>
    have same := cleared.context_eq listed hx inUse still
    rw [Session.isAt, Session.isAt, same]
  | false =>
    rw [isAt_of_away (cleared.away x hx still) concerned,
      isAt_of_away (covers.away hx still) concerned]

theorem isDisplaced_eq (covers : r.Covers s) (models : List String) :
    Manager.isDisplaced t r.target models x = Manager.isDisplaced s r.target models x := by
  have stands (u : Session) (model : String) : u.standsFor x r.target model =
      (u.isAt x r.target && Text.sameAscii (u.context x.context).modelFactory model) := rfl
  have here := cleared.isAt_eq listed hx inUse covers concerns_target
  simp only [Manager.isDisplaced, stands, here]
  cases there : s.isAt x r.target with
  | false => simp
  | true => rw [cleared.context_eq listed hx inUse (covers x hx (.inr there))]

end Finds

/-- **The model factories that come to the target** are those that were at the source. -/
theorem modelsAt_eq (cleared : r.Cleared s s.manager.tracked [] t) (listed : s.Listed)
    (covers : r.Covers s) : Manager.modelsAt t r.source = Manager.modelsAt s r.source := by
  have there : s.manager.tracked.filter (fun x => t.isAt x r.source) =
      s.manager.tracked.filter fun x => s.isAt x r.source :=
    List.filter_congr fun x hx =>
      cleared.isAt_eq listed hx List.not_mem_nil covers concerns_source
  rw [Manager.modelsAt, Manager.modelsAt, cleared.tracked, there]
  refine List.map_congr_left fun x hx => ?_
  obtain ⟨hx, here⟩ := List.mem_filter.mp hx
  rw [cleared.context_eq listed hx List.not_mem_nil (covers x hx (.inl here))]

end Cleared

/-! ## 5. How a call ends -/

/-- **The file was moved**, and so were the live contexts at the source, which are otherwise as they
were; those that they replace are closed. -/
structure Moved (r : Relocation) (s t : Session) : Prop where
  tracked : t.manager.tracked = s.manager.tracked.filter fun x => !r.replaces s x
  bindings : t.manager.bindings = s.manager.bindings.filter fun b => b.context ∉ r.replaced s
  left : ∀ x ∈ t.manager.tracked, t.isAt x r.source = false
  moved : ∀ x ∈ s.manager.tracked, s.isAt x r.source = true →
    x ∈ t.manager.tracked ∧ t.isAt x r.target = true ∧
    t.context x.context = (s.context x.context).followMove r.target ∧
    ∀ b ∈ s.manager.bindings, b.context = x.context →
      b ∈ t.manager.bindings ∧ t.widget? b.widget = s.widget? b.widget
  closed : ∀ x ∈ s.manager.tracked, r.replaces s x = true → x ∉ t.manager.tracked ∧
    t.context x.context = (s.context x.context).dispose ∧
    ∀ b ∈ s.manager.bindings, b.context = x.context → b ∉ t.manager.bindings ∧
      ∃ w, s.widget? b.widget = some w ∧ t.widget? b.widget = some w.retired
  /-- Every other context that stands still is as it was, and so are its widgets. -/
  others : ∀ c < s.contexts.length, r.still c = true →
    (∀ x ∈ s.manager.tracked, x.context = c →
      s.isAt x r.source = false ∧ r.replaces s x = false) →
    t.context c = s.context c ∧ ∀ b ∈ s.manager.bindings, b.context = c →
      b ∈ t.manager.bindings ∧ t.widget? b.widget = s.widget? b.widget

/-- **Nothing has changed** of what stands still. -/
structure Unchanged (r : Relocation) (s t : Session) : Prop where
  tracked : t.manager.tracked = s.manager.tracked
  bindings : t.manager.bindings = s.manager.bindings
  context : ∀ c < s.contexts.length, r.still c = true → t.context c = s.context c
  widget : ∀ b ∈ s.manager.bindings, r.still b.context = true →
    t.widget? b.widget = s.widget? b.widget

theorem Cleared.unchanged (cleared : r.Cleared s s.manager.tracked [] t) : r.Unchanged s t where
  tracked := cleared.tracked
  bindings := by simpa using cleared.bindings
  context c made still := by simpa using cleared.context c made still
  widget b hb still := by simpa using cleared.widget b hb still

/-- What is not replaced keeps its widgets. -/
theorem Cleared.bound_followAll {kept : List Tracked}
    (cleared : r.Cleared s kept (r.replaced s) t) {b : Binding} (hb : b ∈ s.manager.bindings)
    (still : r.still b.context = true) (stays : b.context ∉ r.replaced s) :
    b ∈ (Manager.followAll t r.source r.target).manager.bindings ∧
      (Manager.followAll t r.source r.target).widget? b.widget = s.widget? b.widget := by
  rw [Manager.manager_followAll, Manager.widget?_followAll, cleared.bindings,
    cleared.widget b hb still, if_neg stays]
  exact ⟨List.mem_filter.mpr ⟨hb, by simpa using stays⟩, rfl⟩

/-- **Every other context** stays as it is, with its widgets. -/
theorem Cleared.others_followAll
    (cleared : r.Cleared s (s.manager.tracked.filter fun x => !r.replaces s x) (r.replaced s) t)
    {c : ContextId} (made : c < s.contexts.length) (still : r.still c = true)
    (elsewhere : ∀ x ∈ s.manager.tracked, x.context = c →
      s.isAt x r.source = false ∧ r.replaces s x = false) :
    (Manager.followAll t r.source r.target).context c = s.context c ∧
      ∀ b ∈ s.manager.bindings, b.context = c →
        b ∈ (Manager.followAll t r.source r.target).manager.bindings ∧
          (Manager.followAll t r.source r.target).widget? b.widget = s.widget? b.widget := by
  have stays : c ∉ r.replaced s := by
    intro there
    obtain ⟨x, hx, rfl⟩ := List.mem_map.mp there
    obtain ⟨hx, gives⟩ := List.mem_filter.mp hx
    rw [(elsewhere x hx rfl).2] at gives
    cases gives
  refine ⟨?_, fun b hb shows =>
    cleared.bound_followAll hb (by rwa [shows]) (by rwa [shows])⟩
  rw [Manager.context_followAll (Nat.lt_of_lt_of_le made cleared.length),
    cleared.context c made still, if_neg stays]
  split
  · next there =>
    rw [cleared.tracked] at there
    obtain ⟨x, hx, rfl⟩ := List.mem_map.mp there
    have away : s.isAt x r.source = false := (elsewhere x (List.mem_of_mem_filter hx) rfl).1
    exact if_neg (Bool.eq_false_iff.mp away)
  · rfl

section Follow

variable (listed : s.Listed)

include listed

/-- A context in use is among those that are replaced only if it is replaced itself. -/
theorem mem_replaced {x : Tracked} (hx : x ∈ s.manager.tracked) :
    x.context ∈ r.replaced s ↔ r.replaces s x = true := by
  constructor
  · intro there
    obtain ⟨y, hy, same⟩ := List.mem_map.mp there
    obtain ⟨hy, gives⟩ := List.mem_filter.mp hy
    rwa [← List.inj_on_of_nodup_map listed.nodup hy hx same]
  · exact fun gives => List.mem_map_of_mem (List.mem_filter.mpr ⟨hx, gives⟩)

section

-- all that is replaced is closed
variable (cleared :
  r.Cleared s (s.manager.tracked.filter fun x => !r.replaces s x) (r.replaced s) t)

include cleared

/-- **A live context at the source** is at the target. -/
theorem Cleared.moved_followAll (other : r.source ≠ r.target) (covers : r.Covers s) {x : Tracked}
    (hx : x ∈ s.manager.tracked) (here : s.isAt x r.source = true) :
    x ∈ (Manager.followAll t r.source r.target).manager.tracked ∧
      (Manager.followAll t r.source r.target).isAt x r.target = true ∧
      (Manager.followAll t r.source r.target).context x.context =
        (s.context x.context).followMove r.target ∧
      ∀ b ∈ s.manager.bindings, b.context = x.context →
        b ∈ (Manager.followAll t r.source r.target).manager.bindings ∧
          (Manager.followAll t r.source r.target).widget? b.widget = s.widget? b.widget := by
  have still := covers x hx (.inl here)
  have notReplaced := replaces_of_isAt other here
  have stays : x.context ∉ r.replaced s := by
    rw [mem_replaced listed hx, notReplaced]
    exact Bool.false_ne_true
  have kept : x ∈ t.manager.tracked := by
    rw [cleared.tracked]
    exact List.mem_filter.mpr ⟨hx, by rw [notReplaced]; rfl⟩
  have follows : (Manager.followAll t r.source r.target).context x.context =
      (s.context x.context).followMove r.target := by
    rw [Manager.context_followAll (Nat.lt_of_lt_of_le (listed.made x hx) cleared.length),
      if_pos (List.mem_map_of_mem kept), cleared.context_eq listed hx stays still]
    exact if_pos here
  have live : (s.context x.context).isDisposed = false := by
    simpa using (Bool.and_eq_true_iff.mp here).1
  refine ⟨by rwa [Manager.manager_followAll], ?_, follows, fun b hb shows =>
    cleared.bound_followAll hb (by rwa [shows]) (by rwa [shows])⟩
  rw [Session.isAt, follows, Session.path_followMove, Context.isDisposed_followMove, live]
  simp

/-- **A context that is replaced** is out of use and closed, with its widgets. -/
theorem Cleared.closed_followAll (covers : r.Covers s) {x : Tracked} (hx : x ∈ s.manager.tracked)
    (gives : r.replaces s x = true) :
    x ∉ (Manager.followAll t r.source r.target).manager.tracked ∧
      (Manager.followAll t r.source r.target).context x.context = (s.context x.context).dispose ∧
      ∀ b ∈ s.manager.bindings, b.context = x.context →
        b ∉ (Manager.followAll t r.source r.target).manager.bindings ∧
          ∃ w, s.widget? b.widget = some w ∧
            (Manager.followAll t r.source r.target).widget? b.widget = some w.retired := by
  have still := covers.still_of_replaces hx gives
  have gone : x.context ∈ r.replaced s := (mem_replaced listed hx).mpr gives
  have unused : x.context ∉ t.manager.tracked.map (·.context) := by
    rw [cleared.tracked]
    intro there
    obtain ⟨y, hy, same⟩ := List.mem_map.mp there
    obtain ⟨hy, stays⟩ := List.mem_filter.mp hy
    rw [List.inj_on_of_nodup_map listed.nodup hy hx same, gives] at stays
    cases stays
  rw [Manager.manager_followAll]
  refine ⟨fun there => unused (List.mem_map_of_mem there), ?_, fun b hb shows => ⟨?_, ?_⟩⟩
  · rw [Manager.context_followAll (Nat.lt_of_lt_of_le (listed.made x hx) cleared.length),
      if_neg unused, cleared.context _ (listed.made x hx) still, if_pos gone]
  · rw [cleared.bindings]
    intro there
    have stays := (List.mem_filter.mp there).2
    rw [shows] at stays
    simp [gone] at stays
  · obtain ⟨w, there⟩ := listed.found b hb
    refine ⟨w, there, ?_⟩
    rw [Manager.widget?_followAll, cleared.widget b hb (by rwa [shows]), if_pos (by rwa [shows]),
      there]
    rfl

/-- **When all that is replaced is closed, the contexts follow.** -/
theorem Cleared.moved (other : r.source ≠ r.target) (covers : r.Covers s) :
    r.Moved s (Manager.followAll t r.source r.target) where
  tracked := by rw [Manager.manager_followAll, cleared.tracked]
  bindings := by rw [Manager.manager_followAll, cleared.bindings]
  left x hx := Manager.isAt_followAll other (by rwa [Manager.manager_followAll] at hx)
  moved x hx here := cleared.moved_followAll listed other covers hx here
  closed x hx gives := cleared.closed_followAll listed covers hx gives
  others c made still elsewhere := cleared.others_followAll made still elsewhere

end

end Follow

/-- **How a call that moves a file can end.** -/
inductive Outcome (r : Relocation) (s t : Session) : ManagerResult → Prop
  | moved (h : r.Moved s t) : Outcome r s t (.ok .renamed)
  /-- A context that would be replaced has changes. -/
  | unsaved (h : r.Unchanged s t) : Outcome r s t (.error (.unsavedTarget r.target))
  /-- The store has failed to move the file. -/
  | refused (cause : StoreError) (h : r.Unchanged s t) : Outcome r s t (.error (.store cause))
  /-- The manager was disposed before. -/
  | disposed (h : r.Unchanged s t) (gone : t.manager.disposed = true) :
      Outcome r s t (.error .usedAfterDisposal)

/-! ## 6. The stages of a call -/

/-- **Where a call stands** that began with a session, when these contexts are in use and those have
been closed. -/
inductive Stands (r : Relocation) (s : Session) : List Tracked → List ContextId → Stage → Prop
  | called : Stands r s s.manager.tracked [] (.called (.renameFile r.source r.target))
  | updating : Stands r s s.manager.tracked [] (.updating (.renameFile r.source r.target))
  | moving : Stands r s s.manager.tracked []
      (.moving r.source r.target (Manager.modelsAt s r.source))
  | closing {x : Tracked} {closed rest : List Tracked}
      (parts : s.manager.tracked.filter (r.replaces s) = closed ++ x :: rest) :
      Stands r s (s.manager.tracked.filter fun x => !r.replaces s x) (closed.map (·.context))
        (.closing x rest (.follow r.source r.target))

/-- **What follows on a step** of such a call. -/
inductive Goes (r : Relocation) (s : Session) : Manager.Step → Prop
  | on {t : Session} {stage : Stage} {kept : List Tracked} {closed : List ContextId}
      (stands : r.Stands s kept closed stage) (cleared : r.Cleared s kept closed t) :
      Goes r s (t, .inl stage)
  | ends {t : Session} {result : ManagerResult} (outcome : r.Outcome s t result) :
      Goes r s (t, .inr result)

section Steps

variable (listed : s.Listed) (covers : r.Covers s) (other : r.source ≠ r.target)

include listed covers other

/-- When some are closed, the next is closed, or all follow. -/
theorem goes_retireEach (closed : List Tracked) {rest : List Tracked}
    (parts : s.manager.tracked.filter (r.replaces s) = closed ++ rest)
    (cleared : r.Cleared s (s.manager.tracked.filter fun x => !r.replaces s x)
      (closed.map (·.context)) t) :
    r.Goes s (Manager.retireEach t rest (.follow r.source r.target)) := by
  cases rest with
  | cons x rest => exact .on (.closing parts) cleared
  | nil =>
    have all : closed.map (·.context) = r.replaced s := by
      rw [replaced, parts, List.append_nil]
    rw [all] at cleared
    exact .ends (.moved (cleared.moved listed other covers))

/-- **Every step of the call** takes it from where it stands to where it stands next, or to one of
its ends. -/
theorem Stands.goes {kept : List Tracked} {closed : List ContextId} {stage : Stage}
    (stands : r.Stands s kept closed stage) (cleared : r.Cleared s kept closed t)
    (answer : stage.need.Answer) : r.Goes s (stage.resume t answer) := by
  cases stands with
  | called =>
    simp only [Stage.resume]
    split
    · next gone => exact .ends (.disposed cleared.unchanged gone)
    · exact .on .updating cleared
  | updating =>
    simp only [Stage.resume, Manager.update, Manager.beginMove]
    split
    · exact .ends (.unsaved cleared.unchanged)
    · rw [cleared.modelsAt_eq listed covers]
      exact .on .moving cleared
  | moving =>
    cases answer with
    | error cause => exact .ends (.refused cause cleared.unchanged)
    | ok m =>
      have same (x : Tracked) (hx : x ∈ s.manager.tracked) :
          Manager.isDisplaced t r.target (Manager.modelsAt s r.source) x = r.replaces s x :=
        (cleared.isDisplaced_eq listed hx List.not_mem_nil covers _).trans (isDisplaced_modelsAt x)
      have closing : t.manager.tracked.filter
          (Manager.isDisplaced t r.target (Manager.modelsAt s r.source)) =
            s.manager.tracked.filter (r.replaces s) := by
        rw [cleared.tracked]
        exact List.filter_congr same
      have keep : (t.manager.tracked.filter fun x =>
          !Manager.isDisplaced t r.target (Manager.modelsAt s r.source) x) =
            s.manager.tracked.filter fun x => !r.replaces s x := by
        rw [cleared.tracked]
        exact List.filter_congr fun x hx => congrArg not (same x hx)
      simp only [Stage.resume]
      rw [Manager.retireWhere_eq, closing, keep]
      exact goes_retireEach listed covers other [] rfl (cleared.setTracked _)
  | @closing x closed rest parts =>
    obtain ⟨hx, gives⟩ := List.mem_filter.mp
      (show x ∈ s.manager.tracked.filter (r.replaces s) by rw [parts]; simp)
    exact goes_retireEach listed covers other (closed ++ [x]) (by simpa using parts)
      (cleared.retire_next listed parts (covers.still_of_replaces hx gives))

end Steps

end Relocation

end Folio
