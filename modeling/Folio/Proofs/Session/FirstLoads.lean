/-
# The first load of a context

A context that comes into use is loaded or saved once by itself, by a process that is started in the
same step and is of the coordinator that the context came with.  No step starts such a process
otherwise, and none starts two (`Session.Bears`).

So no context is ever populated by two processes, and while one is, the context is in use with the
coordinator of that process or not at all (`Session.Populates`, `Traffic.populates_run`).
-/
import Folio.Proofs.Autosave.Dealing
import Folio.Proofs.Manager.Outcomes
import Folio.Proofs.Manager.Upkeep
import Mathlib.Data.List.Nodup

namespace Folio

namespace ContextOp

/-- The operation is the first save or load. -/
def isFirst : ContextOp → Bool
  | .populate _ => true
  | _ => false

end ContextOp

namespace ContextCall

/-- The call is of the first save or load. -/
def isFirst : ContextCall → Bool
  | .saving _ _ first => first
  | .reverting _ first => first
  | _ => false

/-- What is begun is the first load just if it was asked for. -/
theorem isFirst_call (c : Context) (op : ContextOp) : (op.call c).isFirst = op.isFirst := by
  cases op with
  | populate isNew => cases isNew <;> rfl
  | _ => rfl

/-- The first save or load is no operation that another call follows. -/
theorem not_again_of_isFirst {c d : Context} {call next : ContextCall} (first : call.isFirst = true)
    {reply : call.request.Reply} : resume c call reply ≠ (d, .again next) := by
  cases call with
  | saving path request isFirst => nofun
  | reverting path isFirst => nofun
  | _ => cases first

end ContextCall

/-- The coordinator whose context is loaded or saved for the first time, if the process does that.
-/
def Process.load? : Process → Option CoordinatorId
  | .load k _ => some k
  | .loading k _ => some k
  | _ => none

namespace Session

variable {s t u : Session}

/-! ## 1. What a step brings into use -/

/-- The coordinators whose first loads have been started. -/
def startedLoads (s : Session) : List CoordinatorId :=
  s.started.filterMap fun work => (Process.ofBackground work).load?

/-- **Nothing comes into use**, and no first load is started. -/
structure Rested (s t : Session) : Prop where
  tracked : t.manager.tracked ⊆ s.manager.tracked
  loads : t.startedLoads = s.startedLoads
  contexts : t.contexts.length = s.contexts.length
  coordinators : t.coordinators.length = s.coordinators.length

namespace Rested

theorem refl (s : Session) : s.Rested s := ⟨List.Subset.refl _, rfl, rfl, rfl⟩

theorem trans (h : s.Rested t) (h' : t.Rested u) : s.Rested u where
  tracked := List.Subset.trans h'.tracked h.tracked
  loads := h'.loads.trans h.loads
  contexts := h'.contexts.trans h.contexts
  coordinators := h'.coordinators.trans h.coordinators

/-- Contexts go out of use at most, and nothing is started. -/
theorem of_eq (tracked : t.manager.tracked ⊆ s.manager.tracked) (started : t.started = s.started)
    (contexts : t.contexts.length = s.contexts.length)
    (coordinators : t.coordinators.length = s.coordinators.length) : s.Rested t :=
  ⟨tracked, by rw [startedLoads, started, startedLoads], contexts, coordinators⟩

theorem foldl {α : Type} {f : Session → α → Session} (h : ∀ (s : Session) (a : α), s.Rested (f s a))
    (l : List α) (s : Session) : s.Rested (l.foldl f s) :=
  foldl_related (R := Rested) refl trans h l s

theorem setContext (s : Session) (c : ContextId) (context : Context) :
    s.Rested (s.setContext c context) :=
  of_eq (List.Subset.refl _) rfl List.length_set rfl

theorem setCoordinator (s : Session) (k : CoordinatorId) (coordinator : Coordinator) :
    s.Rested (s.setCoordinator k coordinator) :=
  of_eq (List.Subset.refl _) rfl rfl List.length_set

theorem setTracked {keep : List Tracked} (kept : keep ⊆ s.manager.tracked) :
    s.Rested (s.setTracked keep) := of_eq kept rfl rfl rfl

theorem setBindings (s : Session) (bindings : List Binding) : s.Rested (s.setBindings bindings) :=
  of_eq (List.Subset.refl _) rfl rfl rfl

theorem retireWidget (s : Session) (w : WidgetId) : s.Rested (s.retireWidget w) := by
  cases w <;> exact of_eq (List.Subset.refl _) rfl rfl rfl

/-- Background work is started that is no first load. -/
theorem start (s : Session) {work : Background} (other : (Process.ofBackground work).load? = none) :
    s.Rested (s.start work) := by
  refine ⟨List.Subset.refl _, ?_, rfl, rfl⟩
  simp [startedLoads, Session.start, other]

theorem startCoordinator (s : Session) (k : CoordinatorId) : s.Rested (s.startCoordinator k) := by
  unfold Session.startCoordinator
  simp only
  split
  · exact refl s
  · exact (setCoordinator s k _).trans (start _ rfl)

theorem switchAutosave (enabled : Bool) (s : Session) (t : Tracked) :
    s.Rested (Manager.switchAutosave enabled s t) := by
  unfold Manager.switchAutosave
  split
  · exact setCoordinator s t.coordinator _
  · split
    · exact startCoordinator s t.coordinator
    · exact refl s

theorem retireContext (s : Session) (t : Tracked) : s.Rested (s.retireContext t) := by
  have withdrawn : s.Rested (s.withdraw t.context) :=
    (setBindings s _).trans (foldl (fun s (b : Binding) => retireWidget s b.widget) _ _)
  rw [retireContext_eq]
  exact (withdrawn.trans (setCoordinator _ t.coordinator _)).trans (setContext _ t.context _)

theorem followAll (s : Session) (source target : String) :
    s.Rested (Manager.followAll s source target) := by
  refine foldl (fun s t => ?_) s.manager.tracked s
  split
  · exact setContext s t.context _
  · exact refl s

end Rested

/-- **What a step brings into use**: nothing, or one context that is new, whose first load it
starts. -/
inductive Bears (s t : Session) : Prop
  | nothing (rested : s.Rested t)
  | one
      (tracked : ∀ x ∈ t.manager.tracked,
        x ∈ s.manager.tracked ∨ x = ⟨s.contexts.length, s.coordinators.length⟩)
      (loads : t.startedLoads = s.startedLoads ++ [s.coordinators.length])
      (made : t.coordinator s.coordinators.length =
        .create s.contexts.length t.manager.settings.interval)
      (contexts : t.contexts.length = s.contexts.length + 1)
      (coordinators : t.coordinators.length = s.coordinators.length + 1)

namespace Bears

/-- After nothing was brought into use. -/
theorem after (rested : s.Rested t) (bears : t.Bears u) : s.Bears u := by
  cases bears with
  | nothing more => exact .nothing (rested.trans more)
  | one tracked loads made contexts coordinators =>
    rw [rested.contexts, rested.coordinators] at tracked
    rw [rested.loads, rested.coordinators] at loads
    rw [rested.contexts, rested.coordinators] at made
    rw [rested.contexts] at contexts
    rw [rested.coordinators] at coordinators
    exact .one (fun x hx => (tracked x hx).imp_left (rested.tracked ·)) loads made contexts
      coordinators

theorem withTracked (s : Session) (path : String) (model : ModelFactory) (isNew : Bool)
    (widget : WidgetFactory) (hint : Option OpenHint) :
    s.Bears ((s.withTracked path model isNew).newWidget widget s.contexts.length hint).1 := by
  refine .one (fun x hx => ?_) ?_ ?_ ?_ ?_
  · exact (List.mem_append.mp hx).imp_right List.mem_singleton.mp
  · exact List.filterMap_append
  · exact coordinator_newTracked s path model isNew
  · exact List.length_append
  · exact List.length_append

theorem afterClosing {after : AfterClosing} (h : after.Makes s t) : s.Bears t := by
  cases h with
  | nothing => exact .nothing (.refl s)
  | shows here => exact .nothing (.of_eq (List.Subset.refl _) rfl rfl rfl)
  | loads nowhere => exact withTracked s _ _ false _ _
  | creates => exact withTracked s _ _ true _ _
  | follows => exact .nothing (.followAll s _ _)

/-- **A step of a call brings no more than one context into use.** -/
theorem stage {stage : Stage} (h : stage.Makes s t) : s.Bears t := by
  cases h with
  | nothing => exact .nothing (.refl s)
  | setsAutosave => exact .nothing (.of_eq (List.Subset.refl _) rfl rfl rfl)
  | setsInterval => exact .nothing (.of_eq (List.Subset.refl _) rfl rfl rfl)
  | @switches enabled => exact .nothing (.foldl (Rested.switchAutosave enabled) _ s)
  | tunes =>
    exact .nothing (.foldl (fun s (t : Tracked) => .setCoordinator s t.coordinator _) _ s)
  | takes kept => exact .nothing (.setTracked kept.subset)
  | retires => exact .nothing (.retireContext s _)
  | ends makes => exact afterClosing makes
  | retiresLast makes => exact after (.retireContext s _) (afterClosing makes)
  | binds => exact .nothing (.setBindings s _)
  | @unbinds w confirmed bindings =>
    exact .nothing ((Rested.setBindings s bindings).trans (.retireWidget _ w))
  | @unbindsLast w confirmed bindings keep kept =>
    have taken := (Rested.setBindings s bindings).trans (.retireWidget _ w)
    refine .nothing (taken.trans (.setTracked ?_))
    cases w <;> exact kept.subset
  | @clears last =>
    cases last <;> exact .nothing (.of_eq (List.Subset.refl _) rfl rfl rfl)

/-- And no other process brings anything into use. -/
theorem process (s : Session) (p : Process) (answer : p.need.Answer) :
    s.Bears (p.resume s answer).1 := by
  by_cases conducts : ∃ stage, p = .manager stage
  · obtain ⟨stage, rfl⟩ := conducts
    have made := Bears.stage (stage.makes s answer)
    simp only [Process.resume]
    split <;> (next same => rw [same] at made; exact made)
  · refine .nothing ?_
    have makes := p.makes s answer (not_exists.mp conducts)
    generalize (p.resume s answer).1 = t at makes ⊢
    cases makes with
    | nothing => exact .refl s
    | called c call reply => exact .setContext s c _
    | loads k call reply => exact .setContext s _ _
    | starts k call reply => exact (Rested.setContext s _ _).trans (.startCoordinator _ k)
    | fires runs => exact .start s rfl
    | reschedules runs => exact .setCoordinator s _ _
    | ends runs => exact .setCoordinator s _ _
    | acts k a given => exact (Rested.setContext s _ _).trans (.setCoordinator _ k _)

end Bears

/-- The host starts no first load. -/
theorem startedLoads_deed (s : Session) (d : Deed) : (d.apply s).startedLoads = s.startedLoads := by
  cases d with
  | startCoordinator k => exact (Rested.startCoordinator s k).loads
  | disposeWidget w => cases w <;> rfl
  | _ => rfl

/-! ## 2. Contexts that are populated -/

/-- **The contexts of these coordinators are populated**, each by one process; and a context that
is, is in use with that coordinator or not at all. -/
structure Populates (s : Session) (ks : List CoordinatorId) : Prop where
  coordinator : ∀ k ∈ ks, k < s.coordinators.length
  context : ∀ k ∈ ks, (s.coordinator k).context < s.contexts.length
  nodup : (ks.map fun k => (s.coordinator k).context).Nodup
  inUse : ∀ k ∈ ks, ∀ x ∈ s.manager.tracked, x.context = (s.coordinator k).context →
    x.coordinator = k

namespace Populates

variable {ks ls : List CoordinatorId}

theorem perm (h : s.Populates ks) (same : ks.Perm ls) : s.Populates ls where
  coordinator k hk := h.coordinator k (same.mem_iff.mpr hk)
  context k hk := h.context k (same.mem_iff.mpr hk)
  nodup := (same.map _).nodup_iff.mp h.nodup
  inUse k hk := h.inUse k (same.mem_iff.mpr hk)

theorem sublist (h : s.Populates ks) (fewer : ls.Sublist ks) : s.Populates ls where
  coordinator k hk := h.coordinator k (fewer.subset hk)
  context k hk := h.context k (fewer.subset hk)
  nodup := h.nodup.sublist (fewer.map _)
  inUse k hk := h.inUse k (fewer.subset hk)

/-- What comes into use meanwhile is new. -/
theorem advances (h : s.Populates ks) (on : s.Advances t)
    (tracked : ∀ x ∈ t.manager.tracked, x ∈ s.manager.tracked ∨ x.context = s.contexts.length) :
    t.Populates ks := by
  have owner (k : CoordinatorId) (hk : k ∈ ks) :
      (t.coordinator k).context = (s.coordinator k).context := on.coordinator k (h.coordinator k hk)
  refine ⟨fun k hk => ?_, fun k hk => ?_, ?_, fun k hk x hx same => ?_⟩
  · exact Nat.lt_of_lt_of_le (h.coordinator k hk) on.coordinators_length
  · rw [owner k hk]
    exact Nat.lt_of_lt_of_le (h.context k hk) on.contexts_length
  · rw [List.map_congr_left owner]
    exact h.nodup
  · rw [owner k hk] at same
    rcases tracked x hx with before | new
    · exact h.inUse k hk x before same
    · exact absurd (same.symm.trans new) (Nat.ne_of_lt (h.context k hk))

/-- **A step populates no context twice.** -/
theorem bears (h : s.Populates ks) (on : s.Advances t) (bears : s.Bears t)
    (made : ∀ x ∈ s.manager.tracked, x.context < s.contexts.length) :
    ∃ ls, t.startedLoads = s.startedLoads ++ ls ∧ t.Populates (ks ++ ls) := by
  cases bears with
  | nothing rested =>
    refine ⟨[], by rw [List.append_nil]; exact rested.loads, ?_⟩
    rw [List.append_nil]
    exact h.advances on fun x hx => .inl (rested.tracked hx)
  | one tracked loads new contexts coordinators =>
    have owner : (t.coordinator s.coordinators.length).context = s.contexts.length :=
      congrArg Coordinator.context new
    have old : t.Populates ks := h.advances on fun x hx =>
      (tracked x hx).imp_right fun same => by rw [same]
    refine ⟨[s.coordinators.length], loads, ?_⟩
    refine ⟨fun k hk => ?_, fun k hk => ?_, ?_, fun k hk x hx same => ?_⟩
    · rcases List.mem_append.mp hk with before | new
      · exact old.coordinator k before
      · rw [List.mem_singleton.mp new, coordinators]
        exact Nat.lt_succ_self _
    · rcases List.mem_append.mp hk with before | new
      · exact old.context k before
      · rw [List.mem_singleton.mp new, owner, contexts]
        exact Nat.lt_succ_self _
    · rw [List.map_append, List.map_singleton, owner]
      refine List.nodup_append.mpr ⟨old.nodup, List.nodup_singleton _, ?_⟩
      intro c hc d hd same
      obtain ⟨k, hk, rfl⟩ := List.mem_map.mp hc
      rw [on.coordinator k (h.coordinator k hk)] at same
      have new : d = s.contexts.length := List.mem_singleton.mp hd
      exact absurd (same.trans new) (Nat.ne_of_lt (h.context k hk))
    · rcases List.mem_append.mp hk with before | new
      · exact old.inUse k before x hx same
      · rw [List.mem_singleton.mp new, owner] at same
        rw [List.mem_singleton.mp new]
        rcases tracked x hx with earlier | new
        · exact absurd same (Nat.ne_of_lt (made x earlier))
        · rw [new]

end Populates

end Session

/-! ## 3. Runs -/

/-- A first load goes on as the first load of the same context, and nothing else goes on as one. -/
theorem Process.load?_of_goesOn {s : Session} {p q : Process} (h : GoesOn s p q) :
    q.load? = p.load? := by
  cases h <;> rfl

/-- No call of the host is a first load. -/
theorem Process.load?_of_isCall {p : Process} (call : p.isCall = true) : p.load? = none := by
  cases p with
  | load k isNew => cases call
  | loading k next => cases call
  | _ => rfl

namespace Traffic

variable {x : Traffic}

/-- The coordinators whose contexts are being populated. -/
def loads (x : Traffic) : List CoordinatorId := x.errands.filterMap (·.process.load?)

/-- The first loads that enter with the background work of a session. -/
theorem loads_absorb (x : Traffic) (session : Session) (errands : List Errand) :
    (x.absorb session errands).loads =
      errands.filterMap (·.process.load?) ++ session.startedLoads := by
  rw [loads, absorb, List.filterMap_append, filterMap_entering _ _ Process.load?]
  rfl

/-- **No move populates a context twice.** -/
theorem populates_step (none : x.session.started = [])
    (made : ∀ t ∈ x.session.manager.tracked, t.context < x.session.contexts.length)
    (populates : x.session.Populates x.loads) (m : Move) :
    (x.step m).session.Populates (x.step m).loads := by
  have quiet : x.session.startedLoads = [] := by rw [Session.startedLoads, none]; rfl
  -- what a session has started enters with what it populates
  have absorbed {session : Session} {errands : List Errand} {ks : List CoordinatorId}
      (on : x.session.Advances session) (bears : x.session.Bears session)
      (before : x.session.Populates ks) (left : (errands.filterMap (·.process.load?)).Sublist ks) :
      (x.absorb session errands).session.Populates (x.absorb session errands).loads := by
    obtain ⟨ls, started, after⟩ := before.bears on bears made
    rw [loads_absorb, started, quiet, List.nil_append]
    have fewer := after.sublist (left.append_right ls)
    exact ⟨fewer.coordinator, fewer.context, fewer.nodup, fewer.inUse⟩
  obtain ⟨e, does⟩ := x.step_does m
  generalize x.step m = y at does ⊢
  cases does with
  | nothing => exact populates
  | deed d =>
    have after := populates.advances (.deed x.session d) fun t ht => .inl <| by
      rwa [Deed.manager_apply] at ht
    rw [loads_absorb, Session.startedLoads_deed, quiet, List.append_nil]
    exact ⟨after.coordinator, after.context, after.nodup, after.inUse⟩
  | @enter p call =>
    have same : (x.enter p).loads = x.loads := by
      simp [loads, Traffic.enter, Process.load?_of_isCall call]
    rw [same]
    exact populates
  | others store => exact populates
  | carries i split => simpa [loads, split, List.filterMap_cons] using populates
  | answers i oracle split => simpa [loads, split, List.filterMap_cons] using populates
  | @goes i oracle before after t answer split =>
    have mine : x.loads.Perm ((t.process.load?).toList ++
        (before ++ after).filterMap (·.process.load?)) := by
      have same := (perm_of_split split).filterMap (·.process.load?)
      rw [List.filterMap_cons] at same
      cases hk : t.process.load? <;> simpa [loads, hk] using same
    have next : ((Errand.next? t.number (t.process.resume x.session answer).2).toList.filterMap
        (·.process.load?)).Sublist (t.process.load?).toList := by
      cases goesOn : (t.process.resume x.session answer).2 with
      | inl q =>
        have same := Process.load?_of_goesOn (Process.goesOn goesOn)
        cases hk : q.load? <;> simp [Errand.next?, ← same, hk]
      | inr outcome => exact List.nil_sublist _
    refine absorbed (.process x.session t.process answer) (.process x.session t.process answer)
      (populates.perm (mine.trans List.perm_append_comm)) ?_
    rw [List.filterMap_append]
    exact (List.Sublist.refl _).append next

/-- **No context is populated twice**, in any run. -/
theorem populates_run (config : Settings) (store : MemoryStore) (moves : List Move) :
    let x := (start (.create config) store).run moves
    x.session.Populates x.loads := by
  induction moves using List.reverseRecOn with
  | nil =>
    exact ⟨fun k hk => absurd hk List.not_mem_nil, fun k hk => absurd hk List.not_mem_nil,
      List.nodup_nil, fun k hk => absurd hk List.not_mem_nil⟩
  | append_singleton moves m ih =>
    rw [run_concat]
    exact populates_step (sound_run config store moves).started
      (fun t ht => (made_of_tracked config store moves ht).context) ih m

/-- **What waits as a first load** is the first save or load, in any run. -/
theorem firsts_run (config : Settings) (store : MemoryStore) (moves : List Move) :
    ∀ t ∈ ((start (.create config) store).run moves).errands, ∀ k call,
      t.process = .loading k call → call.isFirst = true := by
  induction moves using List.reverseRecOn with
  | nil => exact fun t ht => absurd ht List.not_mem_nil
  | append_singleton moves m ih =>
    rw [run_concat]
    intro u hu k call loads
    rcases stood_or_led _ m hu with
      ⟨t, there, -, same⟩ | fresh | ⟨t, others, answer, all, -, -, led⟩
    · exact ih t there k call (same.trans loads)
    · rw [loads] at fresh
      cases fresh
    · rw [loads] at led
      have before := ih t (all.mem_iff.mpr List.mem_cons_self)
      generalize t.process = p at answer led before
      cases Process.goesOn led with
      | loads begun =>
        rw [(ContextOp.of_begin begun).2]
        exact ContextCall.isFirst_call _ (.populate _)
      | loadsAgain again => exact absurd again (ContextCall.not_again_of_isFirst (before _ _ rfl))

/-- **What holds at any moment of a run** of what is in use, of what is to be closed, and of what is
populated. -/
structure Tidy (x : Traffic) : Prop where
  started : x.session.started = []
  made : ∀ t ∈ x.session.manager.tracked, x.session.Made t
  apart : ∀ t ∈ x.errands, ∀ first rest after, t.process = .manager (.closing first rest after) →
    x.session.Made first ∧ ∀ u ∈ x.session.manager.tracked, u.context ≠ first.context
  populates : x.session.Populates x.loads
  firsts : ∀ t ∈ x.errands, ∀ k call, t.process = .loading k call → call.isFirst = true

theorem tidy_run (config : Settings) (store : MemoryStore) (moves : List Move) :
    ((start (.create config) store).run moves).Tidy where
  started := (sound_run config store moves).started
  made _ := made_of_tracked config store moves
  apart _ there _ _ _ closes := apart_of_closing config store moves there closes
  populates := populates_run config store moves
  firsts := firsts_run config store moves

end Traffic

end Folio
