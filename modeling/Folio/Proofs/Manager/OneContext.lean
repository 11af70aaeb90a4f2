/-
# One live context per document

A document is a path together with a model factory.  Four operations bring a context to a path: to
open, to reveal, to create, and to rename a file.  Each of them first takes out of use what would
stand in the way, and between that and what it does then it may be suspended.

The invariant is about the contexts in use (`Session.Distinct`) and about what the owner of the
contexts has already made room for (`Session.MadeRoom`): while a call closes what was in the way,
nothing else comes in its way, since nobody else has the contexts and what lives can only become
less.  Contexts are moved by renaming files alone; all else is free.
-/
import Folio.Proofs.Manager.Paths
import Folio.Proofs.Ensemble.Owner

namespace Folio

namespace Session

/-! ## 1. The invariant -/

/-- The context is neither closed nor failed. -/
def IsLive (s : Session) (t : Tracked) : Prop :=
  (s.context t.context).isDisposed = false ∧ (s.context t.context).hasFailed = false

/-- **Two contexts are not of the same document**: they differ in path or, up to case, in model
factory. -/
def DiffersFrom (s : Session) (t u : Tracked) : Prop :=
  (s.context t.context).path ≠ (s.context u.context).path ∨
    Text.sameAscii (s.context t.context).modelFactory (s.context u.context).modelFactory = false

/-- Two contexts are not both live for the same document. -/
def Apart (s : Session) (t u : Tracked) : Prop := s.IsLive t → s.IsLive u → s.DiffersFrom t u

/-- **The contexts in use** were made, and no two of them are live for the same document. -/
structure Distinct (s : Session) : Prop where
  made : ∀ t ∈ s.manager.tracked, t.context < s.contexts.length
  apart : s.manager.tracked.Pairwise s.Apart

/-- **Room was made** for what follows when all is closed: a new document finds no context that
stands for it, and contexts that follow a file meet none of their model factory. -/
def MadeRoomAfter (s : Session) : AfterClosing → Prop
  | .create path _ model _ => ∀ t ∈ s.manager.tracked, s.standsFor t path model.name = false
  | .follow source target => ∀ t ∈ s.manager.tracked, ∀ u ∈ s.manager.tracked,
    s.isAt t source = true → s.isAt u target = true →
      Text.sameAscii (s.context u.context).modelFactory (s.context t.context).modelFactory = false
  | _ => True

/-- **Room was made** for what the owner of the contexts does next. -/
def MadeRoom (s : Session) : Stage → Prop
  | .closing _ _ after => s.MadeRoomAfter after
  | .moving source _ models => ∀ t ∈ s.manager.tracked, s.isAt t source = true →
    (s.context t.context).modelFactory ∈ models
  | _ => True

/-- **The invariant**, with the stage of the owner of the contexts if there is one. -/
def OneContext (s : Session) (owner : Option Stage) : Prop :=
  s.Distinct ∧ ∀ stage ∈ owner, s.MadeRoom stage

/-! ## 2. What narrowing keeps -/

namespace Narrows

variable {s t : Session}

theorem mem (h : s.Narrows t) {x : Tracked} (hx : x ∈ t.manager.tracked) :
    x ∈ s.manager.tracked := h.tracked.subset hx

/-- A context that is live afterwards was live before. -/
theorem isLive (h : s.Narrows t) {x : Tracked} (made : x.context < s.contexts.length)
    (live : t.IsLive x) : s.IsLive x := by
  have evolves := h.context x.context made
  constructor
  · rw [Bool.eq_false_iff]
    intro closed
    exact absurd (evolves.disposed closed) (Bool.eq_false_iff.mp live.1)
  · rw [Bool.eq_false_iff]
    intro failed
    rcases evolves.failed failed with failed | closed
    · exact absurd failed (Bool.eq_false_iff.mp live.2)
    · exact absurd closed (Bool.eq_false_iff.mp live.1)

/-- A context that is at a path afterwards was there before. -/
theorem isAt (h : s.Narrows t) {x : Tracked} (made : x.context < s.contexts.length) {path : String}
    (there : t.isAt x path = true) : s.isAt x path = true := by
  simp only [Session.isAt, Bool.and_eq_true, Bool.not_eq_true', h.path x.context made] at there ⊢
  refine ⟨?_, there.2⟩
  rw [Bool.eq_false_iff]
  intro closed
  exact absurd ((h.context x.context made).disposed closed) (Bool.eq_false_iff.mp there.1)

/-- What stands for a document afterwards stood for it before. -/
theorem standsFor (h : s.Narrows t) {x : Tracked} (made : x.context < s.contexts.length)
    {path modelFactory : String} (stands : t.standsFor x path modelFactory = true) :
    s.standsFor x path modelFactory = true := by
  have split : ∀ u : Session, u.standsFor x path modelFactory =
      (u.isAt x path && Text.sameAscii (u.context x.context).modelFactory modelFactory) :=
    fun _ => rfl
  rw [split, Bool.and_eq_true] at stands ⊢
  refine ⟨h.isAt made stands.1, ?_⟩
  rw [← (h.context x.context made).modelFactory]
  exact stands.2

theorem distinct (h : s.Narrows t) (distinct : s.Distinct) : t.Distinct where
  made x hx := Nat.lt_of_lt_of_le (distinct.made x (h.mem hx)) h.contexts_length
  apart := by
    refine (distinct.apart.sublist h.tracked).imp_of_mem fun {x y} hx hy apart => ?_
    intro liveX liveY
    have madeX := distinct.made x (h.mem hx)
    have madeY := distinct.made y (h.mem hy)
    have differ := apart (h.isLive madeX liveX) (h.isLive madeY liveY)
    rwa [DiffersFrom, h.path _ madeX, h.path _ madeY, (h.context _ madeX).modelFactory,
      (h.context _ madeY).modelFactory]

theorem madeRoomAfter (h : s.Narrows t) (distinct : s.Distinct) :
    (after : AfterClosing) → s.MadeRoomAfter after → t.MadeRoomAfter after
  | .create path _ model _, room => fun x hx => by
    rw [Bool.eq_false_iff]
    intro stands
    have before := h.standsFor (distinct.made x (h.mem hx)) stands
    exact absurd before (Bool.eq_false_iff.mp (room x (h.mem hx)))
  | .follow source target, room => fun x hx y hy atSource atTarget => by
    have madeX := distinct.made x (h.mem hx)
    have madeY := distinct.made y (h.mem hy)
    rw [(h.context _ madeX).modelFactory, (h.context _ madeY).modelFactory]
    exact room x (h.mem hx) y (h.mem hy) (h.isAt madeX atSource) (h.isAt madeY atTarget)
  | .open _ _ _ _, _ => trivial
  | .delete _, _ => trivial
  | .clear _, _ => trivial
  | .finish _, _ => trivial

theorem madeRoom (h : s.Narrows t) (distinct : s.Distinct) :
    (stage : Stage) → s.MadeRoom stage → t.MadeRoom stage
  | .closing _ _ after, room => h.madeRoomAfter distinct after room
  | .moving source _ models, room => fun x hx atSource => by
    have made := distinct.made x (h.mem hx)
    rw [(h.context _ made).modelFactory]
    exact room x (h.mem hx) (h.isAt made atSource)
  | .called _, _ => trivial
  | .updating _, _ => trivial
  | .reading _, _ => trivial
  | .finding _ _ _ _, _ => trivial
  | .searching _ _ _, _ => trivial
  | .readingBindings _, _ => trivial
  | .binding _ _, _ => trivial
  | .unbinding _ _, _ => trivial
  | .confirming _, _ => trivial
  | .clearing _, _ => trivial
  | .deleting _, _ => trivial

/-- **Whatever narrows a session keeps the invariant.** -/
theorem oneContext (h : s.Narrows t) {owner : Option Stage} (inv : s.OneContext owner) :
    t.OneContext owner :=
  ⟨h.distinct inv.1, fun stage hs => h.madeRoom inv.1 stage (inv.2 stage hs)⟩

end Narrows

/-! ## 3. A new context -/

/-- Whether two contexts are apart depends on nothing but these two. -/
theorem Apart.congr {s u : Session} {x y : Tracked} (apart : s.Apart x y)
    (hx : u.context x.context = s.context x.context)
    (hy : u.context y.context = s.context y.context) : u.Apart x y := by
  simp only [Apart, IsLive, DiffersFrom, hx, hy]
  exact apart

/-- A live context that is not open for the document of another one differs from it. -/
theorem differsFrom_of_not_isOpenFor {s : Session} {x y : Tracked} (live : s.IsLive x)
    (notOpen :
      s.isOpenFor x (s.context y.context).path (s.context y.context).modelFactory = false) :
    s.DiffersFrom x y := by
  by_cases samePath : (s.context x.context).path = (s.context y.context).path
  · right
    simpa [isOpenFor, standsFor, live.1, live.2, samePath] using notOpen
  · exact Or.inl samePath

/-- A live context that is not open for a document differs from a new one that is made for it. -/
theorem differsFrom_newTracked {s : Session} {path : String} {model : ModelFactory} (isNew : Bool)
    {t : Tracked} (made : t.context < s.contexts.length)
    (closed : s.isOpenFor t path model.name = false)
    (live : (s.newTracked path model isNew).1.IsLive t) :
    (s.newTracked path model isNew).1.DiffersFrom t
      ⟨s.contexts.length, s.coordinators.length⟩ := by
  refine differsFrom_of_not_isOpenFor live ?_
  rw [context_newTracked, isOpenFor, standsFor, context_newTracked_of_lt path model isNew made]
  exact closed

/-- **A context comes into use** for a document that no live context in use is of. -/
theorem Distinct.newTracked {s : Session} (distinct : s.Distinct) (path : String)
    (model : ModelFactory) (isNew : Bool)
    (free : ∀ t ∈ s.manager.tracked, s.isOpenFor t path model.name = false) :
    ((s.newTracked path model isNew).1.setTracked
      (s.manager.tracked ++ [⟨s.contexts.length, s.coordinators.length⟩])).Distinct where
  made t ht := by
    rcases List.mem_append.mp ht with ht | ht
    · exact Nat.lt_of_lt_of_le (distinct.made t ht)
        (Advances.newTracked s path model isNew).contexts_length
    · rw [List.mem_singleton.mp ht]
      simp [Session.newTracked, addContext, addCoordinator, start, setTracked]
  apart := by
    have old : ∀ x ∈ s.manager.tracked,
        (s.newTracked path model isNew).1.context x.context = s.context x.context :=
      fun x hx => context_newTracked_of_lt path model isNew (distinct.made x hx)
    refine List.pairwise_append.mpr ⟨?_, List.pairwise_singleton _ _, ?_⟩
    · exact distinct.apart.imp_of_mem fun hx hy apart => apart.congr (old _ hx) (old _ hy)
    · intro x hx y hy liveX _
      rw [List.mem_singleton.mp hy]
      exact differsFrom_newTracked isNew (distinct.made x hx) (free x hx) liveX

/-! ## 4. Contexts follow a file -/

/-- A live context at the source of a move follows it. -/
def followed (source target : String) (c : Context) : Context :=
  if !c.isDisposed && c.path == source then c.followMove target else c

@[simp] theorem isDisposed_followed (source target : String) (c : Context) :
    (followed source target c).isDisposed = c.isDisposed := by
  unfold followed Context.followMove
  split
  · split <;> rfl
  · rfl

@[simp] theorem hasFailed_followed (source target : String) (c : Context) :
    (followed source target c).hasFailed = c.hasFailed := by
  unfold followed Context.followMove
  split
  · split <;> rfl
  · rfl

@[simp] theorem modelFactory_followed (source target : String) (c : Context) :
    (followed source target c).modelFactory = c.modelFactory := by
  unfold followed Context.followMove
  split
  · split <;> rfl
  · rfl

/-- Following a move leads to its target. -/
theorem path_followMove (c : Context) (target : String) : (c.followMove target).path = target := by
  unfold Context.followMove
  split
  · assumption
  · rfl

theorem path_followed_of_isAt {s : Session} {t : Tracked} {source target : String}
    (h : s.isAt t source = true) :
    (followed source target (s.context t.context)).path = target := by
  have moved : followed source target (s.context t.context) =
      (s.context t.context).followMove target := if_pos h
  rw [moved, path_followMove]

theorem path_followed_of_not_isAt {s : Session} {t : Tracked} {source target : String}
    (h : ¬s.isAt t source = true) :
    (followed source target (s.context t.context)).path = (s.context t.context).path := by
  have stays : followed source target (s.context t.context) = s.context t.context := if_neg h
  rw [stays]

/-- To follow a move a second time changes nothing. -/
theorem followed_followed (source target : String) (c : Context) :
    followed source target (followed source target c) = followed source target c := by
  by_cases same : source = target
  · subst same
    have stays : followed source source c = c := by
      unfold followed
      split
      · next h =>
        simp only [Bool.and_eq_true, beq_iff_eq] at h
        rw [Context.followMove, if_pos h.2]
      · rfl
    rw [stays, stays]
  · unfold followed
    split
    · rw [if_neg]
      simp [path_followMove, Ne.symm same]
    · rfl

/-- One context in use follows, if it is at the source. -/
def follow (source target : String) (s : Session) (t : Tracked) : Session :=
  if s.isAt t source then s.setContext t.context ((s.context t.context).followMove target) else s

theorem follow_contexts_length (source target : String) (s : Session) (t : Tracked) :
    (follow source target s t).contexts.length = s.contexts.length := by
  unfold follow
  split <;> simp [setContext]

theorem context_follow (source target : String) (s : Session) (t : Tracked) {c : ContextId}
    (hc : c < s.contexts.length) :
    (follow source target s t).context c =
      if c = t.context then followed source target (s.context c) else s.context c := by
  unfold follow
  by_cases hct : c = t.context
  · subst hct
    rw [if_pos rfl]
    by_cases there : s.isAt t source = true
    · rw [if_pos there, context_setContext _ hc]
      exact (if_pos there).symm
    · rw [if_neg there]
      exact (if_neg there).symm
  · rw [if_neg hct]
    split
    · exact context_setContext_of_ne _ hct
    · rfl

/-- **What following makes of each context**: those in use at the source follow, all others stay. -/
theorem context_followEach (source target : String) :
    ∀ (l : List Tracked) (s : Session) (c : ContextId), c < s.contexts.length →
      (l.foldl (follow source target) s).context c =
        if c ∈ l.map (·.context) then followed source target (s.context c) else s.context c
  | [], s, c, _ => rfl
  | t :: l, s, c, hc => by
    rw [List.foldl_cons,
      context_followEach source target l _ c (by rwa [follow_contexts_length]),
      context_follow source target s t hc]
    by_cases hct : c = t.context
    · simp [hct, followed_followed]
    · simp [hct]

/-- **The contexts in use stay apart** when those at the source of a move follow it, if those at
its target are of other model factories. -/
theorem Distinct.followAll {s : Session} (distinct : s.Distinct) {source target : String}
    (room : s.MadeRoomAfter (.follow source target)) :
    (Manager.followAll s source target).Distinct where
  made t ht := by
    rw [Manager.manager_followAll] at ht
    exact Nat.lt_of_lt_of_le (distinct.made t ht)
      (Advances.followAll s source target).contexts_length
  apart := by
    have after : ∀ t ∈ s.manager.tracked, (Manager.followAll s source target).context t.context =
        followed source target (s.context t.context) := by
      intro t ht
      have each := context_followEach source target s.manager.tracked s t.context
        (distinct.made t ht)
      rwa [if_pos (List.mem_map_of_mem ht)] at each
    rw [Manager.manager_followAll]
    refine distinct.apart.imp_of_mem fun {x y} hx hy apart => ?_
    simp only [Apart, IsLive, DiffersFrom, after x hx, after y hy, isDisposed_followed,
      hasFailed_followed, modelFactory_followed]
    intro liveX liveY
    have differ : s.DiffersFrom x y := apart liveX liveY
    by_cases atX : s.isAt x source = true <;> by_cases atY : s.isAt y source = true
    · -- both were at the source, so it is the factories that differ
      have samePath : (s.context x.context).path = (s.context y.context).path := by
        simp only [isAt, Bool.and_eq_true, beq_iff_eq] at atX atY
        rw [atX.2, atY.2]
      exact Or.inr (differ.resolve_left fun h => h samePath)
    · by_cases meet : (s.context y.context).path = target
      · have there : s.isAt y target = true := by simp [isAt, liveY.1, meet]
        rw [Text.sameAscii_comm]
        exact Or.inr (room x hx y hy atX there)
      · rw [path_followed_of_isAt atX, path_followed_of_not_isAt atY]
        exact Or.inl (Ne.symm meet)
    · by_cases meet : (s.context x.context).path = target
      · have there : s.isAt x target = true := by simp [isAt, liveX.1, meet]
        exact Or.inr (room y hy x hx atY there)
      · rw [path_followed_of_not_isAt atX, path_followed_of_isAt atY]
        exact Or.inl meet
    · rw [path_followed_of_not_isAt atX, path_followed_of_not_isAt atY]
      exact differ

/-! ## 5. Every step of the owner -/

/-- The invariant holds of what a step leads to. -/
def StepsToOneContext (step : Manager.Step) : Prop :=
  step.1.OneContext (Stage.nextOwned? step.2)

/-- A call goes on to a stage for which room was made. -/
theorem oneContext_await {s : Session} {stage : Stage} (distinct : s.Distinct)
    (room : s.MadeRoom stage) : StepsToOneContext (Manager.await s stage) := by
  refine ⟨distinct, fun next hnext => ?_⟩
  simp only [Manager.await, Stage.nextOwned?, Stage.owned?] at hnext
  split at hnext
  · cases hnext
    exact room
  · cases hnext

/-- A call ends. -/
theorem oneContext_end {s : Session} {result : ManagerResult} (distinct : s.Distinct) :
    StepsToOneContext (s, .inr result) := ⟨distinct, fun _ h => by cases h⟩

theorem oneContext_bindNew {s : Session} (distinct : s.Distinct) (widget : WidgetFactory)
    (c : ContextId) (hint : Option OpenHint) :
    StepsToOneContext (Manager.bindNew s widget c hint) :=
  oneContext_await ((Narrows.newWidget s widget c hint).distinct distinct) trivial

/-- **What follows when all is closed** finds the room that was made for it. -/
theorem oneContext_afterClosing {s : Session} (distinct : s.Distinct) :
    (after : AfterClosing) → s.MadeRoomAfter after →
      StepsToOneContext (Manager.afterClosing s after)
  | .open path widget model hint, _ => by
    simp only [Manager.afterClosing, Manager.openNow]
    split
    · exact oneContext_bindNew distinct _ _ _
    · next none =>
      have free := List.find?_eq_none.mp none
      refine oneContext_bindNew (distinct.newTracked path model false fun t ht => ?_) _ _ _
      exact Bool.eq_false_iff.mpr (free t ht)
  | .create path widget model hint, room => by
    refine oneContext_bindNew (distinct.newTracked path model true fun t ht => ?_) _ _ _
    rw [isOpenFor, room t ht, Bool.false_and]
  | .follow source target, room => oneContext_end (distinct.followAll room)
  | .delete path, _ => oneContext_await distinct trivial
  | .clear last, _ => oneContext_await distinct trivial
  | .finish r, _ => oneContext_end distinct

theorem oneContext_retireEach {s : Session} (distinct : s.Distinct) (closing : List Tracked)
    {after : AfterClosing} (room : s.MadeRoomAfter after) :
    StepsToOneContext (Manager.retireEach s closing after) := by
  cases closing with
  | nil => exact oneContext_afterClosing distinct after room
  | cons t rest => exact oneContext_await distinct room

/-- **Taking contexts out of use** makes room for what follows, if the test is right for it. -/
theorem oneContext_retireWhere {s : Session} (distinct : s.Distinct) (test : Tracked → Bool)
    {after : AfterClosing}
    (room : (s.setTracked (s.manager.tracked.filter fun t => !test t)).MadeRoomAfter after) :
    StepsToOneContext (Manager.retireWhere s test after) := by
  rw [Manager.retireWhere_eq]
  exact oneContext_retireEach (Narrows.distinct (.setTracked List.filter_sublist) distinct) _ room

/-- What a test for closing keeps does not pass it. -/
theorem not_of_mem_keep {s : Session} {test : Tracked → Bool} {t : Tracked}
    (h : t ∈ (s.setTracked (s.manager.tracked.filter fun t => !test t)).manager.tracked) :
    test t = false := by
  have passed := (List.mem_filter.mp h).2
  rwa [Bool.not_eq_true'] at passed

theorem oneContext_update {s : Session} (distinct : s.Distinct) :
    (update : ContextUpdate) → StepsToOneContext (Manager.update s update)
  | .open path widget model hint => oneContext_retireWhere distinct _ trivial
  | .create path widget model hint =>
    oneContext_retireWhere distinct _ fun t ht => not_of_mem_keep (s := s) ht
  | .closeWidget widget confirmed => oneContext_await distinct trivial
  | .closeFile path delete => by
    refine oneContext_retireWhere distinct _ ?_
    cases delete <;> exact trivial
  | .closeAll last => oneContext_retireWhere distinct _ trivial
  | .renameFile source target => by
    simp only [Manager.update, Manager.beginMove]
    split
    · exact oneContext_end distinct
    · refine oneContext_await distinct fun t ht there => ?_
      exact List.mem_map_of_mem (List.mem_filter.mpr ⟨ht, there⟩)

theorem oneContext_unbind {s : Session} (distinct : s.Distinct) (widget : WidgetId)
    (confirmed : Bool) : StepsToOneContext (Manager.unbind s widget confirmed) := by
  unfold Manager.unbind
  split
  · exact oneContext_end distinct
  · next b _ =>
    simp only
    split
    · exact oneContext_await distinct trivial
    · have retired := Narrows.distinct
        ((Narrows.setBindings s (s.manager.bindings.eraseP (·.widget == widget))).trans
          (.retireWidget _ widget)) distinct
      split
      · exact oneContext_end retired
      · split
        · exact oneContext_end retired
        · exact oneContext_await
            (Narrows.distinct (.setTracked List.eraseP_sublist) retired) trivial

/-- **Every step of a call** that alters the books keeps the invariant. -/
theorem oneContext_stage {s : Session} (stage : Stage) (answer : stage.need.Answer)
    (alters : stage.alters = true) (inv : s.OneContext stage.owned?) :
    StepsToOneContext (stage.resume s answer) := by
  cases stage with
  | updating update => exact oneContext_update inv.1 update
  | closing t rest after =>
    have narrows := Narrows.retireContext s t
    have room : s.MadeRoomAfter after := inv.2 (.closing t rest after) rfl
    exact oneContext_retireEach (narrows.distinct inv.1) rest
      (narrows.madeRoomAfter inv.1 after room)
  | binding w c => exact oneContext_end ((Narrows.setBindings s _).distinct inv.1)
  | unbinding widget confirmed => exact oneContext_unbind inv.1 widget confirmed
  | clearing last =>
    refine oneContext_end (Narrows.distinct (.of_eq ?_ ?_ ?_) inv.1)
    all_goals cases last <;> rfl
  | moving source target models =>
    cases answer with
    | error e => exact oneContext_end inv.1
    | ok m =>
      have known : s.MadeRoom (.moving source target models) := inv.2 _ rfl
      refine oneContext_retireWhere inv.1 _ fun t ht u hu atSource atTarget => ?_
      have model := known t (List.mem_of_mem_filter ht) atSource
      have stays : Manager.isDisplaced s target models u = false := not_of_mem_keep (s := s) hu
      have apart := List.any_eq_false.mp stays _ model
      rw [standsFor, Bool.and_eq_true, not_and, Bool.not_eq_true] at apart
      exact apart atTarget
  | _ => cases alters

end Session

/-! ## 6. Every run -/

namespace Ensemble

theorem upheld_oneContext :
    Upheld (fun d => d.movesContext = false) (fun p => p.movesContext = false)
      Session.OneContext where
  background work := by cases work <;> rfl
  continues _ _ _ _ stays h := Process.movesContext_continues stays h
  started s owner inv := by
    have narrows : s.Narrows { s with started := [] } := .of_eq rfl rfl (List.Sublist.refl _)
    exact narrows.oneContext inv
  deed s owner d stays inv := (Session.Narrows.deed s d stays).oneContext inv
  bystander s owner p answer stays bystander inv :=
    (Session.Narrows.process s p answer stays bystander).oneContext inv
  owner s stage answer alters inv := Session.oneContext_stage stage answer alters inv

/-- The contexts in use stay distinct, if contexts are moved only by renaming files. -/
theorem distinct_run (config : Settings) (moves : List Move)
    (stay : ∀ m ∈ moves, m.movesContext = false) : ((start config).run moves).session.Distinct := by
  have fresh : Orderly (fun p => p.movesContext = false) Session.OneContext (.start config) :=
    .start ⟨⟨fun _ h => absurd h List.not_mem_nil, List.Pairwise.nil⟩, fun _ h => by cases h⟩
  have orderly := fresh.run upheld_oneContext moves fun m hm => by
    have stays := stay m hm
    cases m with
    | deed d => exact stays
    | enter p => exact stays
    | go i oracle => trivial
  exact orderly.inv.1

/-- **At most one live context per document.**  After every run in which contexts are moved only by
renaming files, any two contexts in use that are neither closed nor failed differ in path or in
model factory. -/
theorem live_contexts_differ (config : Settings) (moves : List Move)
    (stay : ∀ m ∈ moves, m.movesContext = false) :
    let s := ((start config).run moves).session
    s.manager.tracked.Pairwise fun t u => s.IsLive t → s.IsLive u → s.DiffersFrom t u :=
  (distinct_run config moves stay).apart

/-- Two files are opened by two calls each, and then one of them is moved over the other. -/
def opensAndRenames : List Move :=
  [.deed (.setRegistry .sample), .call (.open "a" "editor" none), .call (.open "a" "editor" none),
    .call (.open "b" "editor" none), .call (.open "b" "console" none)] ++ Move.turns 40 ++
    [.call (.renameFile "a" "b")] ++ Move.turns 40

/-- Two live contexts are left at the target, with different model factories. -/
theorem live_contexts_differ_opensAndRenames :
    let s := ((start {}).run opensAndRenames).session
    (∀ m ∈ opensAndRenames, m.movesContext = false) ∧
      (s.manager.tracked.map fun t => (s.context t.context).path) = ["b", "b"] ∧
      s.manager.tracked.Pairwise fun t u => s.IsLive t → s.IsLive u → s.DiffersFrom t u :=
  have stay : ∀ m ∈ opensAndRenames, m.movesContext = false := by decide
  ⟨stay, by decide +kernel, live_contexts_differ {} opensAndRenames stay⟩

end Ensemble

end Folio
