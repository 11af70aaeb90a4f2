/-
# Autosave settings reach every context

A call that sets autosave, or its interval, notes the setting at once and then waits for the
contexts to pass it on to the coordinators in use.  A context that is new takes the interval as it
is noted then; and its coordinator is started at the end of its first load, if autosave is on by
then.  So a context is reached by one of the two ways, whenever it comes into use, as long as a call
that passes its setting on finds the setting that it has noted.

A call may find another one: what it passes on is what it was told, not what is noted by then.  So
of two calls that wait at the same time the one that was called first may come last
(`Traffic.settings_overtaken`).  If no call is overtaken in this way, every coordinator in use
follows the settings whenever no such call waits (`Traffic.settings_reach_all`).
-/
import Folio.Proofs.Session.FirstLoads
import Folio.Proofs.Session.Readiness
import Folio.Proofs.Autosave.OwnFile

namespace Folio

/-! ## 1. First loads -/

namespace ContextCall

variable {c : Context} {call : ContextCall}

/-- **An operation that is not the first load** only changes its context. -/
theorem changes_resume (later : call.isFirst = false) (reply : call.request.Reply) :
    c.Changes (resume c call reply).1 := by
  cases call with
  | saving path request first =>
    obtain rfl : first = false := later
    exact .afterSave c reply
  | reverting path first =>
    obtain rfl : first = false := later
    exact .afterRevert c path reply
  | «renaming» path target => exact .afterRename c target reply
  | restoring path id =>
    cases reply with
    | error e => exact .refl c
    | ok u =>
      simp only [resume]
      split <;> exact .refl c
  | _ => exact .refl c

/-- **The end of the first load** of a context that is loading: it is ready just if the load has
succeeded, and nothing follows. -/
theorem resume_first (loading : c.state = .loading) (first : call.isFirst = true)
    (reply : call.request.Reply) :
    ∃ d result, resume c call reply = (d, .done result) ∧
      (d.isReady = true ↔ ∃ r, result = .ok r) := by
  -- up to the end of the load the context is loading
  have ends (outcome : Context × Except ContextError Unit) (same : outcome.1.state = .loading) :
      ∃ d result, conclude true outcome = (d, .done result) ∧
        (d.isReady = true ↔ ∃ r, result = .ok r) := by
    obtain ⟨d, result⟩ := outcome
    refine ⟨_, _, rfl, ?_⟩
    have loading : d.state = .loading := same
    cases result with
    | error e =>
      have unready : (d.settle (.error e)).isReady = false := by
        simp only [Context.settle, loading]
        split <;> simp [Context.isReady, loading]
      simp [unready, Except.map]
    | ok u => simp [Context.settle, loading, Context.isReady, Context.emit, Except.map]
  cases call with
  | saving path request isFirst =>
    obtain rfl : isFirst = true := first
    refine ends (c.afterSave reply) ?_
    cases reply with
    | error e => exact loading
    | ok m => exact loading
  | reverting path isFirst =>
    obtain rfl : isFirst = true := first
    refine ends (c.afterRevert path reply) ?_
    have stays := (Context.Changes.afterRevert c path reply).ages
    cases stays with
    | stays state => exact state.trans loading
    | closes live closed =>
      have kept := Context.lasting_isDisposed.afterRevert c path reply
      rw [Context.isDisposed, Context.isDisposed, closed, loading] at kept
      cases kept
  | _ => cases first

end ContextCall

namespace Context

/-- A context that changes and is not closed stays in its phase. -/
theorem Changes.state_of_live {c d : Context} (h : c.Changes d) (live : d.isDisposed = false) :
    d.state = c.state := by
  cases h.ages with
  | stays state => exact state
  | closes _ closed =>
    rw [isDisposed, closed] at live
    cases live

end Context

/-! ## 2. How a coordinator stands -/

/-- **How a coordinator stands**: whether it is active, its interval, and whether its context is
ready. -/
structure Stance where
  active : Bool
  interval : Duration
  ready : Bool

namespace Stance

/-- Autosave is switched on or off. -/
def switch (enabled : Bool) (stance : Stance) : Stance :=
  { stance with active := enabled && (stance.active || stance.ready) }

/-- The interval is set. -/
def tune (interval : Duration) (stance : Stance) : Stance :=
  { stance with interval := Autosave.raisedInterval interval }

/-- **A coordinator is attuned to the settings**, but for those that are still to be passed on: it
is active only if its context is ready, and then just if autosave is on; and its interval is the one
that is set, if that is not too short. -/
structure Attuned (stance : Stance) (settings : AutosavePolicy) (switching tuning : Prop) :
    Prop where
  ready : stance.active = true → stance.ready = true
  active : stance.ready = true → stance.active = settings.enabled ∨ switching
  interval : stance.interval = Autosave.raisedInterval settings.interval ∨ tuning

namespace Attuned

variable {stance : Stance} {settings : AutosavePolicy} {switching tuning switching' tuning' : Prop}

theorem mono (h : stance.Attuned settings switching tuning) (switched : switching → switching')
    (tuned : tuning → tuning') : stance.Attuned settings switching' tuning' :=
  ⟨h.ready, fun ready => (h.active ready).imp_right switched, h.interval.imp_right tuned⟩

/-- Autosave is to be switched. -/
theorem toSwitch (h : stance.Attuned settings switching tuning) (now : switching')
    (enabled : Bool) : stance.Attuned { settings with enabled } switching' tuning :=
  ⟨h.ready, fun _ => .inr now, h.interval⟩

/-- The interval is to be set. -/
theorem toTune (h : stance.Attuned settings switching tuning) (now : tuning')
    (interval : Duration) : stance.Attuned { settings with interval } switching tuning' :=
  ⟨h.ready, h.active, .inr now⟩

/-- **Autosave is switched** as it is set, or else is still to be switched. -/
theorem switch (h : stance.Attuned settings switching tuning) {enabled : Bool}
    (current : enabled = settings.enabled ∨ switching') :
    (stance.switch enabled).Attuned settings switching' tuning := by
  refine ⟨fun active => ?_, fun ready => current.imp_left fun same => ?_, h.interval⟩
  · obtain ⟨-, either⟩ := Bool.and_eq_true_iff.mp active
    exact (Bool.or_eq_true_iff.mp either).elim h.ready id
  · have there : stance.ready = true := ready
    rw [Stance.switch, there, Bool.or_true, Bool.and_true, same]

/-- **The interval is set** as it is to be, or else is still to be set. -/
theorem tune (h : stance.Attuned settings switching tuning) {interval : Duration}
    (current : interval = settings.interval ∨ tuning') :
    (stance.tune interval).Attuned settings switching tuning' :=
  ⟨h.ready, h.active, current.imp_left fun same => congrArg Autosave.raisedInterval same⟩

end Attuned

end Stance

namespace Session

variable {s t u : Session} {k : CoordinatorId}

/-- The stance of a coordinator. -/
def stance (s : Session) (k : CoordinatorId) : Stance where
  active := (s.coordinator k).active
  interval := (s.coordinator k).configured
  ready := (s.context (s.coordinator k).context).isReady

/-- The timer and the latch of a coordinator are not part of its stance. -/
theorem stance_congr (core : (t.coordinator k).core = (s.coordinator k).core)
    (ready : (t.context (s.coordinator k).context).isReady =
      (s.context (s.coordinator k).context).isReady) : t.stance k = s.stance k := by
  have active : (t.coordinator k).active = (s.coordinator k).active := by
    simpa [Coordinator.core] using congrArg Coordinator.active core
  have interval : (t.coordinator k).configured = (s.coordinator k).configured := by
    simpa [Coordinator.core] using congrArg Coordinator.configured core
  have owner : (t.coordinator k).context = (s.coordinator k).context := by
    simpa [Coordinator.core] using congrArg Coordinator.context core
  rw [stance, active, interval, owner, ready, stance]

/-- **A coordinator that is new** has the interval that is set, and its context is loading. -/
theorem attuned_of_new {c : ContextId} {switching tuning : Prop}
    (made : s.coordinator k = .create c s.manager.settings.interval)
    (loading : (s.context c).state = .loading) :
    (s.stance k).Attuned s.manager.settings switching tuning := by
  have owner : (s.coordinator k).context = c := congrArg Coordinator.context made
  have unready : (s.stance k).ready = false := by simp [stance, owner, Context.isReady, loading]
  refine ⟨fun active => ?_, fun ready => ?_, .inl (congrArg Coordinator.configured made)⟩
  · have inactive : (s.stance k).active = false := congrArg Coordinator.active made
    rw [inactive] at active
    cases active
  · rw [unready] at ready
    cases ready

/-! ## 3. Starting, switching and tuning -/

theorem coordinator_startCoordinator_of_ne (s : Session) {j : CoordinatorId} (other : j ≠ k) :
    (s.startCoordinator k).coordinator j = s.coordinator j := by
  unfold startCoordinator
  simp only
  split
  · rfl
  · exact coordinator_setCoordinator_of_ne _ other

/-- **A coordinator that is started** is active, if its context is ready. -/
theorem stance_startCoordinator (made : k < s.coordinators.length)
    (ready : (s.stance k).ready = true) :
    (s.startCoordinator k).stance k = { s.stance k with active := true } := by
  have live : (s.context (s.coordinator k).context).isDisposed = false := by
    rw [stance, Context.isReady, beq_iff_eq] at ready
    rw [Context.isDisposed, ready]
    rfl
  unfold startCoordinator
  simp only [live]
  split
  · next new none started =>
    unfold Coordinator.start at started
    split at started
    · next active =>
      rw [Bool.false_or] at active
      rw [stance, active]
    · cases started
  · next new number started =>
    have there (work : Background) :
        ((s.setCoordinator k new).start work).coordinator k = new :=
      coordinator_setCoordinator new made
    rw [stance, there]
    unfold Coordinator.start at started
    split at started
    · cases started
    · cases started
      rfl

/-- **Autosave is switched for one context.** -/
theorem stance_switchAutosave (enabled : Bool) {x : Tracked} (made : s.Made x) :
    (Manager.switchAutosave enabled s x).stance x.coordinator =
      (s.stance x.coordinator).switch enabled := by
  unfold Manager.switchAutosave
  split
  · next off =>
    have there : (s.stopCoordinator x.coordinator).coordinator x.coordinator =
        (s.coordinator x.coordinator).stop := coordinator_setCoordinator _ made.coordinator
    rw [Bool.not_eq_true'] at off
    rw [stance, there, off]
    rfl
  · next on =>
    rw [Bool.not_eq_true', Bool.not_eq_false] at on
    rw [on, ← made.owner]
    split
    · next ready =>
      rw [stance_startCoordinator made.coordinator ready]
      simp [Stance.switch, stance, ready]
    · next unready =>
      rw [Bool.not_eq_true] at unready
      simp [Stance.switch, stance, unready]

theorem coordinator_switchAutosave_of_ne (enabled : Bool) (s : Session) {x : Tracked}
    (other : k ≠ x.coordinator) :
    (Manager.switchAutosave enabled s x).coordinator k = s.coordinator k := by
  unfold Manager.switchAutosave
  split
  · exact coordinator_setCoordinator_of_ne _ other
  · split
    · exact coordinator_startCoordinator_of_ne s other
    · rfl

/-- **The interval of one coordinator is set.** -/
theorem stance_setCoordinatorInterval (made : k < s.coordinators.length) (interval : Duration) :
    (s.setCoordinatorInterval k interval).stance k = (s.stance k).tune interval := by
  have there : (s.setCoordinatorInterval k interval).coordinator k =
      (s.coordinator k).setInterval interval := coordinator_setCoordinator _ made
  rw [stance, there]
  unfold Coordinator.setInterval
  simp only
  split <;> rfl

/-- **What is done for each context in use**, and does no more if it is done twice, is done once for
the coordinator of each. -/
theorem stance_foldl {f : Session → Tracked → Session} {g : Stance → Stance}
    (leaves : ∀ (s : Session) (x : Tracked), s.LeavesContexts (f s x))
    (here : ∀ {s : Session} {x : Tracked}, s.Made x → (f s x).stance x.coordinator =
      g (s.stance x.coordinator))
    (away : ∀ (s : Session) {x : Tracked} {k : CoordinatorId}, k ≠ x.coordinator →
      (f s x).coordinator k = s.coordinator k)
    (once : ∀ stance, g (g stance) = g stance) {tracked : List Tracked}
    (made : ∀ x ∈ tracked, s.Made x) :
    ((tracked.foldl f s).stance k) =
      if k ∈ tracked.map (·.coordinator) then g (s.stance k) else s.stance k := by
  induction tracked generalizing s with
  | nil => rfl
  | cons y rest ih =>
    have after : ∀ x ∈ rest, (f s y).Made x := fun x hx =>
      (made x (List.mem_cons_of_mem y hx)).advances (leaves s y).advances
    rw [List.foldl_cons, ih after]
    by_cases same : k = y.coordinator
    · subst same
      rw [here (made y List.mem_cons_self), once, ite_self, if_pos (by simp)]
    · have kept : (f s y).stance k = s.stance k := by
        refine stance_congr (congrArg Coordinator.core (away s same)) ?_
        rw [context, (leaves s y).contexts, context]
      have rest_only : k ∈ (y :: rest).map (·.coordinator) ↔ k ∈ rest.map (·.coordinator) := by
        rw [List.map_cons, List.mem_cons]
        exact or_iff_right same
      simp only [kept, rest_only]

/-- **Autosave is switched** for the contexts in use. -/
theorem stance_switches (enabled : Bool) (made : ∀ x ∈ s.manager.tracked, s.Made x) {x : Tracked}
    (there : x ∈ s.manager.tracked) :
    (s.manager.tracked.foldl (Manager.switchAutosave enabled) s).stance x.coordinator =
      (s.stance x.coordinator).switch enabled := by
  rw [stance_foldl (LeavesContexts.switchAutosave enabled)
    (fun made => stance_switchAutosave enabled made)
    (fun s _ _ other => coordinator_switchAutosave_of_ne enabled s other) (fun stance => ?_) made,
    if_pos (List.mem_map_of_mem there)]
  cases enabled <;> cases h : stance.active <;> cases h' : stance.ready <;>
    simp [Stance.switch, h, h']

/-- **The interval is set** for the contexts in use. -/
theorem stance_tunes (interval : Duration) (made : ∀ x ∈ s.manager.tracked, s.Made x) {x : Tracked}
    (there : x ∈ s.manager.tracked) :
    (s.manager.tracked.foldl (fun s t => s.setCoordinatorInterval t.coordinator interval) s).stance
      x.coordinator = (s.stance x.coordinator).tune interval := by
  rw [stance_foldl (fun s x => LeavesContexts.setCoordinatorInterval s x.coordinator interval)
    (fun made => stance_setCoordinatorInterval made.coordinator interval)
    (fun s _ _ other => coordinator_setCoordinator_of_ne _ other) (fun stance => rfl) made,
    if_pos (List.mem_map_of_mem there)]

end Session

/-! ## 4. Steps of calls -/

/-- The call sets autosave or its interval. -/
def Stage.sets : Stage → Bool
  | .called (.setAutosave _) => true
  | .called (.setInterval _) => true
  | .reading (.setAutosave _) => true
  | .reading (.setInterval _) => true
  | _ => false

namespace AfterClosing.Makes

variable {s t : Session} {after : AfterClosing}

theorem settings (h : after.Makes s t) : t.manager.settings = s.manager.settings := by
  cases h with
  | follows =>
    exact Manager.followAll_keeps (·.manager.settings) (fun _ _ _ => rfl) s _ _
  | _ => rfl

theorem coordinator (h : after.Makes s t) {k : CoordinatorId} (made : k < s.coordinators.length) :
    t.coordinator k = s.coordinator k := by
  have newTracked (path : String) (model : ModelFactory) (isNew : Bool) :
      (s.withTracked path model isNew).coordinator k = s.coordinator k :=
    Session.coordinator_addCoordinator_of_lt (s := (s.addContext _).1) _ made
  cases h with
  | nothing => rfl
  | shows here => rfl
  | loads nowhere => exact newTracked _ _ false
  | creates => exact newTracked _ _ true
  | follows =>
    exact Manager.followAll_keeps (·.coordinator k) (fun _ _ _ => rfl) s _ _

end AfterClosing.Makes

namespace Stage.Makes

variable {s t : Session} {stage : Stage}

theorem settings (h : stage.Makes s t) (other : stage.sets = false) :
    t.manager.settings = s.manager.settings := by
  cases h with
  | setsAutosave => cases other
  | setsInterval => cases other
  | switches => cases other
  | tunes => cases other
  | retires => rw [Session.manager_retireContext]
  | ends makes => exact makes.settings
  | retiresLast makes =>
    rw [makes.settings, Session.manager_retireContext]
  | @unbinds w => cases w <;> rfl
  | @unbindsLast w => cases w <;> rfl
  | @clears last => cases last <;> rfl
  | _ => rfl

/-- **No other call touches a coordinator**, but the one whose context it closes. -/
theorem coordinator (h : stage.Makes s t) (other : stage.sets = false) {k : CoordinatorId}
    (made : k < s.coordinators.length) (stays : ∀ x ∈ stage.leaving.head?, k ≠ x.coordinator) :
    t.coordinator k = s.coordinator k := by
  cases h with
  | setsAutosave => cases other
  | setsInterval => cases other
  | switches => cases other
  | tunes => cases other
  | @retires x rest after => exact s.coordinator_retireContext_of_ne (stays x rfl)
  | ends makes => exact makes.coordinator made
  | @retiresLast x after u makes =>
    have same := s.coordinator_retireContext_of_ne (stays x rfl)
    refine (makes.coordinator ?_).trans same
    rw [(Session.Rested.retireContext s x).coordinators]
    exact made
  | @unbinds w => cases w <;> rfl
  | @unbindsLast w => cases w <;> rfl
  | @clears last => cases last <;> rfl
  | _ => rfl

end Stage.Makes

namespace Session

variable {s t : Session}

/-- **The first load of a coordinator is still to end**: the context is loading, or closed. -/
def Unsettled (s : Session) (k : CoordinatorId) : Prop :=
  (s.context (s.coordinator k).context).state = .loading ∨
    (s.context (s.coordinator k).context).state = .disposed

/-- **A call that sets nothing** leaves every coordinator in use attuned. -/
theorem attuned_stage {stage : Stage} {answer : stage.need.Answer} {switching tuning : Prop}
    (makes : stage.Makes s (stage.resume s answer).1)
    (other : stage.sets = false) (made : ∀ x ∈ s.manager.tracked, s.Made x)
    (live : (stage.resume s answer).1.Live)
    (apart : ∀ first ∈ stage.leaving.head?, s.Made first ∧
      ∀ x ∈ s.manager.tracked, x.context ≠ first.context)
    (attuned : ∀ x ∈ s.manager.tracked,
      (s.stance x.coordinator).Attuned s.manager.settings switching tuning) :
    ∀ x ∈ (stage.resume s answer).1.manager.tracked,
      ((stage.resume s answer).1.stance x.coordinator).Attuned
        (stage.resume s answer).1.manager.settings switching tuning := by
  have changes := ChangesContexts.stage s stage answer
  have fresh := BearsFresh.stage s stage answer
  have bears := Bears.stage makes
  generalize (stage.resume s answer).1 = t at makes live changes fresh bears ⊢
  -- a context that stays in use changes, is live, and so stays in its phase
  have stays {x : Tracked} (before : x ∈ s.manager.tracked) (after : x ∈ t.manager.tracked) :
      (t.stance x.coordinator).Attuned t.manager.settings switching tuning := by
    have same : t.coordinator x.coordinator = s.coordinator x.coordinator := by
      refine makes.coordinator other (made x before).coordinator fun first leaves same => ?_
      obtain ⟨madeFirst, away⟩ := apart first leaves
      refine away x before ?_
      rw [← (made x before).owner, same, madeFirst.owner]
    have phase := (changes.changes x.context (made x before).context).state_of_live (live x after)
    have kept : t.stance x.coordinator = s.stance x.coordinator := by
      refine stance_congr (congrArg Coordinator.core same) ?_
      rw [(made x before).owner, Context.isReady, Context.isReady, phase]
    rw [kept, makes.settings other]
    exact attuned x before
  intro x after
  cases bears with
  | nothing rested => exact stays (rested.tracked after) after
  | one tracked loads new contexts coordinators =>
    rcases tracked x after with before | rfl
    · exact stays before after
    · refine attuned_of_new new ?_
      exact (fresh s.contexts.length (Nat.le_refl _) (contexts ▸ Nat.lt_succ_self _)).loading

end Session

/-! ## 5. Steps of other processes -/

/-- What is received has been announced. -/
theorem Context.announced_of_receive {c : Context} {place next : Nat} {a : Announcement}
    (received : c.events.receive place = (.value a, next)) : a ∈ c.announced := by
  unfold Journal.receive at received
  split at received
  · cases received
  · split at received
    · next b found =>
      cases received
      have listed : c.announced[place]? = some a := by simpa [Context.announced] using found
      exact List.mem_of_getElem? listed
    · cases received

/-- A live context has not announced that it is closed. -/
theorem Context.Regular.not_announced {c : Context} (regular : c.Regular)
    (live : c.isDisposed = false) : .disposed ∉ c.announced := by
  have unclosed : c.told .disposed = 0 := by
    refine regular.unclosed fun closed => ?_
    rw [Context.isDisposed, closed] at live
    cases live
  exact List.count_eq_zero.mp unclosed

namespace Process

variable {s : Session} {p : Process}

/-- **A process is apt**: a first load is of a context that is still loading, or closed; no
operation of the host is a first load; and a loop that waits listens to the context of its
coordinator. -/
def IsApt (s : Session) : Process → Prop
  | .operation _ op => op.isFirst = false
  | .calling _ call => call.isFirst = false
  | .load k _ => s.Unsettled k
  | .loading k call => call.isFirst = true ∧ s.Unsettled k
  | .ticking k _ _ c _ => k < s.coordinators.length ∧ (s.coordinator k).context = c
  | _ => True

/-- **What an apt process does to a context** that it does not populate. -/
theorem changes_resume (apt : p.IsApt s) (answer : p.need.Answer) {c : ContextId}
    (made : c < s.contexts.length) (other : ∀ k ∈ p.load?, c ≠ (s.coordinator k).context) :
    (s.context c).Changes ((p.resume s answer).1.context c) := by
  by_cases conducts : ∃ stage, p = .manager stage
  · obtain ⟨stage, rfl⟩ := conducts
    rw [Ensemble.session_manager]
    exact (Session.ChangesContexts.stage s stage answer).changes c made
  · have makes := p.makes s answer (not_exists.mp conducts)
    generalize (p.resume s answer).1 = t at makes ⊢
    cases makes with
    | called d call reply =>
      exact Session.context_setContext_related Context.Changes.refl
        (ContextCall.changes_resume apt reply) c
    | loads k call reply =>
      rw [Session.context_setContext_of_ne _ (other k rfl)]
      exact .refl _
    | starts k call reply =>
      rw [Session.context_startCoordinator, Session.context_setContext_of_ne _ (other k rfl)]
      exact .refl _
    | acts k a given =>
      exact Session.context_setContext_related Context.Changes.refl
        (Context.Changes.attempt (s.scene k) a given) c
    | _ => exact .refl _

/-- No loop of a live context hears that it is closed, so **a loop that wakes up leaves the stance
of a coordinator in use**. -/
theorem core_ticking {k : CoordinatorId} {number place : Nat} {c : ContextId} {interval : Duration}
    {x : Tracked} (made : s.Made x) (live : (s.context x.context).isDisposed = false)
    (regular : s.Regular) (apt : (Process.ticking k number place c interval).IsApt s) (t : Tick) :
    ((resumeLoop s k number place c t).1.coordinator x.coordinator).core =
      (s.coordinator x.coordinator).core := by
  unfold resumeLoop
  simp only
  split
  · rfl
  · cases t with
    | due => rfl
    | rescheduled =>
      have same : (s.coordinator k).takeReschedule.core = (s.coordinator k).core := rfl
      exact Session.looks_setCoordinator Coordinator.core same x.coordinator
    | announced =>
      simp only
      split
      · next received =>
        by_cases same : x.coordinator = k
        · have owner : c = x.context := by rw [← apt.2, ← same, made.owner]
          have heard := Context.announced_of_receive received
          rw [owner] at heard
          exact absurd heard ((regular x.context made.context).not_announced live)
        · have kept := Session.coordinator_setCoordinator_of_ne (s := s)
            (s.coordinator k).endLoop same
          exact congrArg Coordinator.core kept
      · rfl

/-- **A process that is no call and no first load** leaves the stance of a coordinator in use. -/
theorem stance_resume (other : ∀ stage, p ≠ .manager stage) (later : p.load? = none)
    (apt : p.IsApt s) (answer : p.need.Answer) (regular : s.Regular) {x : Tracked} (made : s.Made x)
    (live : (s.context x.context).isDisposed = false)
    (after : ((p.resume s answer).1.context x.context).isDisposed = false) :
    (p.resume s answer).1.stance x.coordinator = s.stance x.coordinator := by
  have phase := (changes_resume apt answer made.context (by simp [later])).state_of_live after
  refine Session.stance_congr ?_ (by rw [made.owner, Context.isReady, Context.isReady, phase])
  by_cases ticks : ∃ k number place c interval, p = .ticking k number place c interval
  · obtain ⟨k, number, place, c, interval, rfl⟩ := ticks
    exact core_ticking made live regular apt answer
  · have makes := p.makes s answer other
    generalize (p.resume s answer).1 = t at makes ⊢
    cases makes with
    | loads k call reply => cases later
    | starts k call reply => cases later
    | fires runs => exact absurd ⟨_, _, _, _, _, rfl⟩ ticks
    | reschedules runs => exact absurd ⟨_, _, _, _, _, rfl⟩ ticks
    | ends runs => exact absurd ⟨_, _, _, _, _, rfl⟩ ticks
    | acts k a given =>
      exact Session.looks_setCoordinator (s := s.setContext _ _) Coordinator.core
        (Attempt.core_resume (s.scene k) a given) x.coordinator
    | _ => rfl

/-- **The first load ends.**  If it has succeeded the context is ready, and the coordinator is
started if autosave is on. -/
theorem attuned_finishLoad {k : CoordinatorId} (made : k < s.coordinators.length)
    {result : ContextResult} (ready : (s.stance k).ready = true ↔ ∃ r, result = .ok r)
    (inactive : (s.stance k).active = false) {switching tuning : Prop}
    (interval :
      (s.stance k).interval = Autosave.raisedInterval s.manager.settings.interval ∨ tuning) :
    ((finishLoad s k result).1.stance k).Attuned s.manager.settings switching tuning := by
  -- a coordinator that is not active needs no context that is ready
  have needless (active : (s.stance k).active = true) : (s.stance k).ready = true := by
    rw [inactive] at active
    cases active
  cases result with
  | error e =>
    refine ⟨needless, fun isReady => ?_, interval⟩
    obtain ⟨r, failed⟩ := ready.mp isReady
    cases failed
  | ok r =>
    have isReady := ready.mpr ⟨r, rfl⟩
    simp only [finishLoad, finish]
    split
    · next on =>
      rw [Session.stance_startCoordinator made isReady]
      exact ⟨fun _ => isReady, fun _ => .inl on.symm, interval⟩
    · next off =>
      rw [Bool.not_eq_true] at off
      exact ⟨needless, fun _ => .inl (inactive.trans off.symm), interval⟩

/-- **A step of the first load of another context** leaves the stance of a coordinator. -/
theorem stance_load_of_ne {k : CoordinatorId} (loads : p.load? = some k) (answer : p.need.Answer)
    {x : Tracked} (made : s.Made x) (other : x.context ≠ (s.coordinator k).context) :
    (p.resume s answer).1.stance x.coordinator = s.stance x.coordinator := by
  have away : x.coordinator ≠ k := fun same => other (by rw [← same, made.owner])
  have kept (c : Context) : (s.setContext (s.coordinator k).context c).stance x.coordinator =
      s.stance x.coordinator := by
    refine Session.stance_congr rfl ?_
    rw [made.owner, Session.context_setContext_of_ne c other]
  have started (s : Session) : (s.startCoordinator k).stance x.coordinator =
      s.stance x.coordinator := by
    refine Session.stance_congr ?_ (by rw [Session.context_startCoordinator])
    exact congrArg Coordinator.core (Session.coordinator_startCoordinator_of_ne s away)
  have makes := p.makes s answer (by rintro stage rfl; cases loads)
  generalize (p.resume s answer).1 = t at makes ⊢
  cases makes with
  | nothing => rfl
  | loads j call reply =>
    obtain rfl : j = k := Option.some.inj loads
    exact kept _
  | starts j call reply =>
    obtain rfl : j = k := Option.some.inj loads
    exact (started _).trans (kept _)
  | _ => cases loads

/-- **A step of a first load** leaves a coordinator in use attuned. -/
theorem attuned_load {k : CoordinatorId} (loads : p.load? = some k) (apt : p.IsApt s)
    (answer : p.need.Answer) (context : (s.coordinator k).context < s.contexts.length)
    {x : Tracked} (made : s.Made x) (live : (s.context x.context).isDisposed = false)
    (inUse : x.context = (s.coordinator k).context → x.coordinator = k) {switching tuning : Prop}
    (attuned : (s.stance x.coordinator).Attuned s.manager.settings switching tuning) :
    ((p.resume s answer).1.stance x.coordinator).Attuned s.manager.settings switching tuning := by
  by_cases mine : x.context = (s.coordinator k).context
  · obtain rfl : x.coordinator = k := inUse mine
    cases p with
    | load j isNew =>
      simp only [resume]
      split <;> exact attuned
    | loading j call =>
      obtain rfl : j = x.coordinator := Option.some.inj loads
      obtain ⟨first, unsettled⟩ := apt
      rw [mine] at live
      -- the context is loading, as it is live, so the coordinator is not active
      have loading : (s.context (s.coordinator x.coordinator).context).state = .loading := by
        refine unsettled.resolve_right fun closed => ?_
        rw [Context.isDisposed, closed] at live
        cases live
      have inactive : (s.stance x.coordinator).active = false := by
        rw [Bool.eq_false_iff]
        intro active
        have ready := attuned.ready active
        rw [Session.stance, Context.isReady, loading] at ready
        cases ready
      obtain ⟨d, result, ends, ready⟩ := ContextCall.resume_first loading first answer
      simp only [resume, resumeLoad, ends]
      refine attuned_finishLoad (s := s.setContext (s.coordinator x.coordinator).context d)
        made.coordinator (Iff.trans ?_ ready) inactive attuned.interval
      rw [Session.stance]
      show ((s.setContext (s.coordinator x.coordinator).context d).context
        (s.coordinator x.coordinator).context).isReady = true ↔ d.isReady = true
      rw [Session.context_setContext d context]
    | _ => cases loads
  · rw [stance_load_of_ne loads answer made mine]
    exact attuned

/-! ## 6. Processes stay apt -/

variable {t : Session} {q : Process}

/-- A process stays apt while others take their steps, if the context that it populates only
changes. -/
theorem IsApt.advances (apt : p.IsApt s) (on : s.Advances t)
    (changes : ∀ k ∈ p.load?, k < s.coordinators.length ∧
      (s.context (s.coordinator k).context).Changes (t.context (s.coordinator k).context)) :
    p.IsApt t := by
  have unsettled {k : CoordinatorId} (loads : k ∈ p.load?) (h : s.Unsettled k) : t.Unsettled k := by
    obtain ⟨made, change⟩ := changes k loads
    rw [Session.Unsettled, on.coordinator k made]
    cases change.ages with
    | stays state => exact state ▸ h
    | closes live closed => exact .inr closed
  cases p with
  | load k isNew => exact unsettled rfl apt
  | loading k call => exact ⟨apt.1, unsettled rfl apt.2⟩
  | ticking k number place c interval =>
    exact ⟨Nat.lt_of_lt_of_le apt.1 on.coordinators_length, (on.coordinator k apt.1).trans apt.2⟩
  | _ => exact apt

/-- What has been started makes no difference. -/
theorem IsApt.without_started (apt : p.IsApt s) : p.IsApt { s with started := [] } := by
  cases p <;> exact apt

/-- **What an apt process goes on as** is apt. -/
theorem IsApt.next (apt : p.IsApt s) {answer : p.need.Answer}
    (h : (p.resume s answer).2 = .inl q) : q.IsApt (p.resume s answer).1 := by
  cases goesOn h with
  | @begins c op call begun =>
    rw [(ContextOp.of_begin begun).2]
    exact (ContextCall.isFirst_call _ op).trans apt
  | again again =>
    obtain ⟨path, rfl⟩ := ContextCall.exists_reverting_of_again again
    exact rfl
  | @loads k isNew call begun =>
    have same : ((Process.load k isNew).resume s answer).1 = s := by
      simp only [resume]
      split <;> rfl
    rw [same, (ContextOp.of_begin begun).2]
    exact ⟨ContextCall.isFirst_call _ (.populate isNew), apt⟩
  | loadsAgain again => exact absurd again (ContextCall.not_again_of_isFirst apt.1)
  | @sleeps k number place =>
    simp only [resume] at h ⊢
    split at h
    · next runs =>
      rw [if_pos runs]
      exact ⟨Session.made_of_runs runs, rfl⟩
    · cases h
  | _ => trivial

/-- What has been started is apt, if the first loads are. -/
theorem isApt_of_started (loads : ∀ k ∈ t.startedLoads, t.Unsettled k) {work : Background}
    (there : work ∈ t.started) : (ofBackground work).IsApt t := by
  cases work with
  | load k isNew => exact loads k (List.mem_filterMap.mpr ⟨_, there, rfl⟩)
  | _ => trivial

/-- **The first loads that a step starts** are of contexts that are loading. -/
theorem unsettled_of_started (none : s.started = []) (p : Process) (answer : p.need.Answer) :
    ∀ k ∈ (p.resume s answer).1.startedLoads, (p.resume s answer).1.Unsettled k := by
  have fresh := (Session.Proceeds.process s p answer).fresh
  have bears := Session.Bears.process s p answer
  have quiet : s.startedLoads = [] := by rw [Session.startedLoads, none]; rfl
  intro k hk
  cases bears with
  | nothing rested =>
    rw [rested.loads, quiet] at hk
    cases hk
  | one tracked loads made contexts coordinators =>
    rw [loads, quiet, List.nil_append] at hk
    rw [List.mem_singleton.mp hk, Session.Unsettled, made]
    exact .inl (fresh s.contexts.length (Nat.le_refl _) (contexts ▸ Nat.lt_succ_self _)).loading

/-- The setting of autosave that the process waits to pass on. -/
def switches? : Process → Option Bool
  | .manager (.reading (.setAutosave enabled)) => some enabled
  | _ => none

/-- The interval that the process waits to pass on. -/
def tunes? : Process → Option Duration
  | .manager (.reading (.setInterval interval)) => some interval
  | _ => none

theorem of_switches? {enabled : Bool} (h : p.switches? = some enabled) :
    p = .manager (.reading (.setAutosave enabled)) := by
  unfold switches? at h
  split at h
  · cases h
    rfl
  · cases h

theorem of_tunes? {interval : Duration} (h : p.tunes? = some interval) :
    p = .manager (.reading (.setInterval interval)) := by
  unfold tunes? at h
  split at h
  · cases h
    rfl
  · cases h

end Process

/-- Switching leaves alone what the manager keeps. -/
theorem Session.manager_switches (enabled : Bool) (tracked : List Tracked) (s : Session) :
    (tracked.foldl (Manager.switchAutosave enabled) s).manager = s.manager := by
  refine foldl_related (R := fun s t => t.manager = s.manager) (fun _ => rfl)
    (fun h h' => h'.trans h) (fun s t => ?_) tracked s
  unfold Manager.switchAutosave
  split
  · rfl
  · split
    · exact manager_startCoordinator s t.coordinator
    · rfl

/-- And so does tuning. -/
theorem Session.manager_tunes (interval : Duration) (tracked : List Tracked) (s : Session) :
    (tracked.foldl (fun s t => s.setCoordinatorInterval t.coordinator interval) s).manager =
      s.manager :=
  foldl_related (R := fun s t => t.manager = s.manager) (fun _ => rfl) (fun h h' => h'.trans h)
    (f := fun s (t : Tracked) => s.setCoordinatorInterval t.coordinator interval) (fun _ _ => rfl)
    tracked s

/-- **What the host does to a context** is a change. -/
theorem Deed.changes_apply (s : Session) {d : Deed} {c : ContextId} (made : c < s.contexts.length) :
    (s.context c).Changes ((d.apply s).context c) := by
  cases d with
  | setModel e model =>
    exact Session.context_setContext_related Context.Changes.refl (.one (.models model)) c
  | followMove e target =>
    exact Session.context_setContext_related Context.Changes.refl (.followMove _ target) c
  | disposeContext e =>
    exact Session.context_setContext_related Context.Changes.refl (.dispose _) c
  | disposeWidget w => cases w <;> exact .refl _
  | newContext path modelFactory contentType kind =>
    rw [Deed.apply, Session.context_addContext_of_lt _ made]
    exact .refl _
  | startCoordinator k =>
    rw [Deed.apply, Session.context_startCoordinator]
    exact .refl _
  | _ => exact .refl _

/-! ## 7. Runs -/

namespace Traffic

variable {x y : Traffic}

/-- **The host leaves it to the manager** to start, to stop and to set coordinators, and to load and
to close contexts. -/
def Move.isUnaided : Move → Bool
  | .deed (.startCoordinator _) => false
  | .deed (.stopCoordinator _) => false
  | .deed (.setInterval _ _) => false
  | .deed (.disposeContext _) => false
  | .enter (.operation _ op) => !op.isFirst
  | _ => true

/-- **What holds besides at any moment of a run** in which the host does so. -/
structure Tended (x : Traffic) : Prop extends x.Tidy where
  live : x.session.Live
  regular : x.session.Regular

theorem tended_run (config : Settings) (store : MemoryStore) {moves : List Move}
    (unaided : ∀ m ∈ moves, m.isUnaided = true) :
    ((start (.create config) store).run moves).Tended where
  toTidy := tidy_run config store moves
  live := live_run config store moves fun m hm => by
    have leaves := unaided m hm
    cases m with
    | deed d => cases d <;> first | rfl | cases leaves
    | _ => trivial
  regular := regular_run config store moves

section Called

variable {α : Type} [DecidableEq α]

/-- A process under way asks for something. -/
def isCalled (x : Traffic) (asks : Process → Option α) (a : α) : Bool :=
  x.errands.any fun t => asks t.process == some a

variable {asks : Process → Option α} {a : α}

theorem isCalled_iff : x.isCalled asks a = true ↔ ∃ t ∈ x.errands, asks t.process = some a := by
  simp [isCalled]

/-- Who is under way goes on asking. -/
theorem isCalled_mono (more : ∀ t ∈ x.errands, ∃ u ∈ y.errands, u.process = t.process)
    (called : x.isCalled asks a = true) : y.isCalled asks a = true := by
  obtain ⟨t, there, same⟩ := isCalled_iff.mp called
  obtain ⟨u, hu, process⟩ := more t there
  exact isCalled_iff.mpr ⟨u, hu, by rw [process, same]⟩

/-- Who asks takes the step, or goes on asking. -/
theorem isCalled_resumed {others : List Errand} {t : Errand} (answer : t.process.need.Answer)
    (all : x.errands.Perm (t :: others)) (called : x.isCalled asks a = true) :
    asks t.process = some a ∨ (x.resumed others t answer).isCalled asks a = true := by
  obtain ⟨u, there, same⟩ := isCalled_iff.mp called
  rcases List.mem_cons.mp (all.mem_iff.mp there) with rfl | there
  · exact .inl same
  · exact .inr (isCalled_iff.mpr
      ⟨u, List.mem_append_left _ (List.mem_append_left _ there), same⟩)

/-- What a step leads to may ask. -/
theorem isCalled_of_next {others : List Errand} {t : Errand} {answer : t.process.need.Answer}
    {q : Process} (next : (t.process.resume x.session answer).2 = .inl q) (now : asks q = some a) :
    (x.resumed others t answer).isCalled asks a = true := by
  refine isCalled_iff.mpr ⟨⟨t.number, q, none⟩, ?_, now⟩
  refine List.mem_append_left _ (List.mem_append_right _ ?_)
  rw [next]
  exact List.mem_singleton_self _

end Called

/-- **The setting of autosave is still to be passed on.** -/
def toSwitch (x : Traffic) : Bool :=
  x.isCalled Process.switches? x.session.manager.settings.enabled

/-- **The interval is still to be passed on.** -/
def toTune (x : Traffic) : Bool := x.isCalled Process.tunes? x.session.manager.settings.interval

/-- **Nobody is overtaken**: when a call passes its setting on, a call that passes on the one that
is noted is under way, be it this one or another. -/
def keepsUp (x : Traffic) : Move → Bool
  | .go i _ =>
    match x.errands[i]? with
    | some t => (t.process.switches?.isNone || x.toSwitch) && (t.process.tunes?.isNone || x.toTune)
    | none => true
  | _ => true

/-- **All coordinators in use are attuned**, and all processes are apt. -/
structure Attuned (x : Traffic) : Prop where
  apt : ∀ t ∈ x.errands, t.process.IsApt x.session
  stances : ∀ t ∈ x.session.manager.tracked, (x.session.stance t.coordinator).Attuned
    x.session.manager.settings (x.toSwitch = true) (x.toTune = true)

/-- What is under way after a step is apt, if it was and what has been started is. -/
theorem apt_absorb {session : Session} {errands : List Errand}
    (apt : ∀ t ∈ errands, t.process.IsApt session)
    (loads : ∀ k ∈ session.startedLoads, session.Unsettled k) :
    ∀ u ∈ (x.absorb session errands).errands,
      u.process.IsApt (x.absorb session errands).session := by
  intro u hu
  rcases List.mem_append.mp hu with there | entered
  · exact (apt u there).without_started
  · obtain ⟨j, hj, rfl⟩ := List.mem_mapIdx.mp entered
    exact (Process.isApt_of_started loads (List.getElem_mem hj)).without_started

namespace Attuned

/-- The session stays as it is, and so do the processes. -/
theorem of_session (attuned : x.Attuned) (session : y.session = x.session)
    (processes : y.errands.map (·.process) = x.errands.map (·.process)) : y.Attuned := by
  have goesOn {x y : Traffic} (same : y.errands.map (·.process) = x.errands.map (·.process))
      {t : Errand} (ht : t ∈ x.errands) : ∃ u ∈ y.errands, u.process = t.process := by
    have there : t.process ∈ y.errands.map (·.process) := same ▸ List.mem_map_of_mem ht
    exact List.mem_map.mp there
  refine ⟨fun u hu => ?_, fun t ht => ?_⟩
  · obtain ⟨t, there, same⟩ := goesOn processes.symm hu
    rw [session, ← same]
    exact attuned.apt t there
  · rw [toSwitch, toTune, session]
    rw [session] at ht
    exact (attuned.stances t ht).mono (isCalled_mono fun _ => goesOn processes)
      (isCalled_mono fun _ => goesOn processes)

/-- **The host does something** and leaves the coordinators and the contexts to the manager. -/
theorem deed (attuned : x.Attuned) (tended : x.Tended) {d : Deed}
    (unaided : Move.isUnaided (.deed d) = true) (live : (d.apply x.session).Live) :
    (x.absorb (d.apply x.session) x.errands).Attuned := by
  have on := Session.Advances.deed x.session d
  have manager := Deed.manager_apply x.session d
  have none : (d.apply x.session).startedLoads = [] := by
    rw [Session.startedLoads_deed, Session.startedLoads, tended.started]
    rfl
  refine ⟨fun u hu => ?_, fun t ht => ?_⟩
  · refine apt_absorb (fun t there => ?_) (by simp [none]) u hu
    refine (attuned.apt t there).advances on fun k loads => ?_
    have listed : k ∈ x.loads := List.mem_filterMap.mpr ⟨t, there, loads⟩
    exact ⟨tended.populates.coordinator k listed, d.changes_apply x.session
      (tended.populates.context k listed)⟩
  · have there : t ∈ x.session.manager.tracked := manager ▸ ht
    have made := tended.made t there
    have core : ((d.apply x.session).coordinator t.coordinator).core =
        (x.session.coordinator t.coordinator).core := by
      cases d with
      | newCoordinator c interval =>
        rw [Deed.apply, Session.coordinator_addCoordinator_of_lt _ made.coordinator]
      | disposeWidget w => cases w <;> rfl
      | startCoordinator k => cases unaided
      | stopCoordinator k => cases unaided
      | setInterval k interval => cases unaided
      | _ => rfl
    have phase := (d.changes_apply x.session made.context).state_of_live (live t ht)
    have stance : (d.apply x.session).stance t.coordinator = x.session.stance t.coordinator := by
      refine Session.stance_congr core ?_
      rw [made.owner, Context.isReady, Context.isReady, phase]
    have stays (u : Errand) (hu : u ∈ x.errands) : ∃ v ∈ (x.absorb (d.apply x.session)
        x.errands).errands, v.process = u.process := ⟨u, List.mem_append_left _ hu, rfl⟩
    show ((d.apply x.session).stance t.coordinator).Attuned (d.apply x.session).manager.settings _ _
    rw [stance, manager, toSwitch, toTune]
    show (x.session.stance t.coordinator).Attuned x.session.manager.settings
      (isCalled _ _ (d.apply x.session).manager.settings.enabled = true)
      (isCalled _ _ (d.apply x.session).manager.settings.interval = true)
    rw [manager]
    exact (attuned.stances t there).mono (isCalled_mono stays) (isCalled_mono stays)

/-- A process that neither notes nor passes on a setting leaves all coordinators in use attuned. -/
theorem stances_resume (attuned : x.Attuned) (tended : x.Tended) {t : Errand}
    (there : t ∈ x.errands) {answer : t.process.need.Answer}
    (live : (t.process.resume x.session answer).1.Live)
    (other : ∀ stage, t.process = .manager stage → stage.sets = false) :
    (t.process.resume x.session answer).1.manager.settings = x.session.manager.settings ∧
      ∀ u ∈ (t.process.resume x.session answer).1.manager.tracked,
        ((t.process.resume x.session answer).1.stance u.coordinator).Attuned
          x.session.manager.settings (x.toSwitch = true) (x.toTune = true) := by
  have apt := attuned.apt t there
  have loads (k : CoordinatorId) (loads : t.process.load? = some k) : k ∈ x.loads :=
    List.mem_filterMap.mpr ⟨t, there, loads⟩
  have apart := tended.apart t there
  obtain ⟨number, process, reply⟩ := t
  by_cases conducts : ∃ stage, process = .manager stage
  · obtain ⟨stage, rfl⟩ := conducts
    rw [Ensemble.session_manager] at live ⊢
    have quiet := other stage rfl
    have makes := stage.makes x.session answer
    have settings := makes.settings quiet
    have stances := Session.attuned_stage makes quiet tended.made live (fun first leaves => by
      cases stage with
      | closing head rest after =>
        obtain rfl : head = first := Option.some.inj leaves
        exact apart head rest after rfl
      | _ => cases leaves) attuned.stances
    rw [settings] at stances
    exact ⟨settings, stances⟩
  · have manager := Process.manager_resume x.session process answer (not_exists.mp conducts)
    refine ⟨congrArg Manager.settings manager, fun u hu => ?_⟩
    have after := live u hu
    rw [manager] at hu
    have made := tended.made u hu
    cases loading : process.load? with
    | some k =>
      have listed := loads k loading
      exact Process.attuned_load loading apt answer (tended.populates.context k listed) made
        (tended.live u hu) (tended.populates.inUse k listed u hu) (attuned.stances u hu)
    | none =>
      rw [Process.stance_resume (not_exists.mp conducts) loading apt answer tended.regular made
        (tended.live u hu) after]
      exact attuned.stances u hu

/-- **A setting is noted.**  From now on it is to be passed on. -/
theorem stances_note (attuned : x.Attuned) {number : Nat} {op : ManagerOp} {reply : Option Unit}
    {others : List Errand} (all : x.errands.Perm (⟨number, .manager (.called op), reply⟩ :: others))
    (sets : (Stage.called op).sets = true) :
    let y := x.resumed others ⟨number, .manager (.called op), reply⟩ ()
    ∀ u ∈ y.session.manager.tracked, (y.session.stance u.coordinator).Attuned
      y.session.manager.settings (y.toSwitch = true) (y.toTune = true) := by
  intro y
  have switching {enabled : Bool} (called : x.isCalled Process.switches? enabled = true) :
      y.isCalled Process.switches? enabled = true :=
    (isCalled_resumed () all called).resolve_left nofun
  have tuning {interval : Duration} (called : x.isCalled Process.tunes? interval = true) :
      y.isCalled Process.tunes? interval = true :=
    (isCalled_resumed () all called).resolve_left nofun
  by_cases disposed : x.session.manager.disposed = true
  · have refused : ((Process.manager (.called op)).resume x.session ()).1 = x.session := by
      rw [Ensemble.session_manager]
      simp only [Stage.resume, disposed, if_true]
      cases op <;> rfl
    have same : y.session = { x.session with started := [] } :=
      congrArg (fun s : Session => { s with started := [] }) refused
    rw [toSwitch, toTune, same]
    exact fun u hu => (attuned.stances u hu).mono switching tuning
  · rw [Bool.not_eq_true] at disposed
    cases op with
    | setAutosave enabled =>
      have step : (Process.manager (.called (.setAutosave enabled))).resume x.session () =
          ({ x.session with manager.settings.enabled := enabled },
            .inl (.manager (.reading (.setAutosave enabled)))) := by
        simp [Process.resume, Stage.resume, disposed, Manager.begin, Manager.await]
      have same : y.session =
          { x.session with manager.settings.enabled := enabled, started := [] } :=
        congrArg (fun step : Process.Step => { step.1 with started := [] }) step
      have now : y.isCalled Process.switches? enabled = true :=
        isCalled_of_next (congrArg Prod.snd step) rfl
      rw [toSwitch, toTune, same]
      exact fun u hu => ((attuned.stances u hu).mono id tuning).toSwitch now enabled
    | setInterval interval =>
      have step : (Process.manager (.called (.setInterval interval))).resume x.session () =
          ({ x.session with manager.settings.interval := interval },
            .inl (.manager (.reading (.setInterval interval)))) := by
        simp [Process.resume, Stage.resume, disposed, Manager.begin, Manager.await]
      have same : y.session =
          { x.session with manager.settings.interval := interval, started := [] } :=
        congrArg (fun step : Process.Step => { step.1 with started := [] }) step
      have now : y.isCalled Process.tunes? interval = true :=
        isCalled_of_next (congrArg Prod.snd step) rfl
      rw [toSwitch, toTune, same]
      exact fun u hu => ((attuned.stances u hu).mono switching id).toTune now interval
    | _ => cases sets

/-- **A setting is passed on** that is noted, or else the one that is noted is still to be passed
on. -/
theorem stances_pass (attuned : x.Attuned) (tended : x.Tended) {number : Nat} {query : ContextQuery}
    {reply : Option Unit} {others : List Errand}
    (all : x.errands.Perm (⟨number, .manager (.reading query), reply⟩ :: others))
    (sets : (Stage.reading query).sets = true)
    (switched : (Process.manager (.reading query)).switches?.isSome = true → x.toSwitch = true)
    (tuned : (Process.manager (.reading query)).tunes?.isSome = true → x.toTune = true) :
    let y := x.resumed others ⟨number, .manager (.reading query), reply⟩ ()
    ∀ u ∈ y.session.manager.tracked, (y.session.stance u.coordinator).Attuned
      y.session.manager.settings (y.toSwitch = true) (y.toTune = true) := by
  intro y
  have switching {enabled : Bool} (called : x.isCalled Process.switches? enabled = true) :=
    isCalled_resumed () all called
  have tuning {interval : Duration} (called : x.isCalled Process.tunes? interval = true) :=
    isCalled_resumed () all called
  cases query with
  | setAutosave enabled =>
    have manager := x.session.manager_switches enabled x.session.manager.tracked
    have same : y.session.manager = x.session.manager := manager
    have current : enabled = x.session.manager.settings.enabled ∨
        y.isCalled Process.switches? x.session.manager.settings.enabled = true :=
      (switching (switched rfl)).imp_left Option.some.inj
    rw [toSwitch, toTune, same]
    intro u hu
    show (((x.session.manager.tracked.foldl (Manager.switchAutosave enabled) x.session).stance
      u.coordinator)).Attuned _ _ _
    rw [Session.stance_switches enabled tended.made hu]
    refine ((attuned.stances u hu).mono id fun called => ?_).switch current
    exact (tuning called).resolve_left nofun
  | setInterval interval =>
    have manager := x.session.manager_tunes interval x.session.manager.tracked
    have same : y.session.manager = x.session.manager := manager
    have current : interval = x.session.manager.settings.interval ∨
        y.isCalled Process.tunes? x.session.manager.settings.interval = true :=
      (tuning (tuned rfl)).imp_left Option.some.inj
    rw [toSwitch, toTune, same]
    intro u hu
    show (((x.session.manager.tracked.foldl
      (fun s t => s.setCoordinatorInterval t.coordinator interval) x.session).stance
      u.coordinator)).Attuned _ _ _
    rw [Session.stance_tunes interval tended.made hu]
    refine ((attuned.stances u hu).mono (fun called => ?_) id).tune current
    exact (switching called).resolve_left nofun
  | _ => cases sets

/-- A process that takes its step leaves all others apt, and goes on as one that is. -/
theorem apt_resumed (attuned : x.Attuned) (tended : x.Tended) {others : List Errand} {t : Errand}
    (answer : t.process.need.Answer) (all : x.errands.Perm (t :: others)) :
    ∀ u ∈ (x.resumed others t answer).errands,
      u.process.IsApt (x.resumed others t answer).session := by
  have apt := attuned.apt t (all.mem_iff.mpr List.mem_cons_self)
  refine apt_absorb (fun u hu => ?_)
    (Process.unsettled_of_started tended.started t.process answer)
  rcases List.mem_append.mp hu with other | led
  · have within := all.mem_iff.mpr (List.mem_cons_of_mem t other)
    refine (attuned.apt u within).advances (.process x.session t.process answer) fun k loads => ?_
    have listed : k ∈ x.loads := List.mem_filterMap.mpr ⟨u, within, loads⟩
    refine ⟨tended.populates.coordinator k listed, Process.changes_resume apt answer
      (tended.populates.context k listed) fun j mine same => ?_⟩
    -- no two processes populate the same context
    have nodup := (tended.populates.perm (all.filterMap _)).nodup
    rw [List.filterMap_cons, show t.process.load? = some j from mine, List.map_cons] at nodup
    refine (List.nodup_cons.mp nodup).1 (List.mem_map.mpr ⟨k, ?_, same⟩)
    exact List.mem_filterMap.mpr ⟨u, other, loads⟩
  · obtain ⟨-, next, -⟩ := Errand.of_mem_next? (Option.mem_toList.mp led)
    exact apt.next next

/-- **A process takes its step**, and is not overtaken if it passes a setting on. -/
theorem goes (attuned : x.Attuned) (tended : x.Tended) {before after : List Errand} {t : Errand}
    {answer : t.process.need.Answer} (split : x.errands = before ++ t :: after)
    (live : (t.process.resume x.session answer).1.Live)
    (switched : t.process.switches?.isSome = true → x.toSwitch = true)
    (tuned : t.process.tunes?.isSome = true → x.toTune = true) :
    (x.resumed (before ++ after) t answer).Attuned := by
  have front := perm_of_split split
  have there : t ∈ x.errands := front.mem_iff.mpr List.mem_cons_self
  refine ⟨attuned.apt_resumed tended answer front, ?_⟩
  by_cases sets : ∃ stage, t.process = .manager stage ∧ stage.sets = true
  · obtain ⟨number, process, reply⟩ := t
    obtain ⟨stage, rfl, sets⟩ := sets
    cases stage with
    | called op => exact stances_note attuned front sets
    | reading query => exact stances_pass attuned tended front sets switched tuned
    | _ => cases sets
  · obtain ⟨settings, stances⟩ := stances_resume attuned tended there live fun stage same =>
      Bool.eq_false_iff.mpr fun quiet => sets ⟨stage, same, quiet⟩
    intro u hu
    show (Session.stance _ u.coordinator).Attuned
      (t.process.resume x.session answer).1.manager.settings
      (isCalled _ _ (t.process.resume x.session answer).1.manager.settings.enabled = true)
      (isCalled _ _ (t.process.resume x.session answer).1.manager.settings.interval = true)
    rw [settings]
    refine (stances u hu).mono (fun called => ?_) fun called => ?_
    · refine (isCalled_resumed answer front called).resolve_left fun mine => ?_
      exact sets ⟨_, Process.of_switches? mine, rfl⟩
    · refine (isCalled_resumed answer front called).resolve_left fun mine => ?_
      exact sets ⟨_, Process.of_tunes? mine, rfl⟩

/-- **Every move** in which nobody is overtaken leaves all coordinators in use attuned, if the host
leaves it to the manager. -/
theorem step (attuned : x.Attuned) (tended : x.Tended) {m : Move} (unaided : m.isUnaided = true)
    (keepsUp : x.keepsUp m = true) (live : (x.step m).session.Live) : (x.step m).Attuned := by
  cases m with
  | go i oracle =>
    rw [Traffic.step] at live ⊢
    rcases x.go_cases i oracle with same | ⟨before, after, t, answer, found, split, -, -, same⟩
    · rw [same]
      exact attuned
    · rw [same] at live ⊢
      simp only [Traffic.keepsUp, found, Bool.and_eq_true, Bool.or_eq_true] at keepsUp
      refine attuned.goes tended split live (fun some => ?_) fun some => ?_
      · exact keepsUp.1.resolve_left fun none => by simp [Option.isNone_iff_eq_none.mp none] at some
      · exact keepsUp.2.resolve_left fun none => by simp [Option.isNone_iff_eq_none.mp none] at some
  | deed d => exact attuned.deed tended unaided live
  | enter p =>
    simp only [Traffic.step]
    split
    · next call =>
      have enters : p.IsApt x.session := by
        cases p with
        | operation c op =>
          rw [Move.isUnaided, Bool.not_eq_true'] at unaided
          exact unaided
        | manager stage => trivial
        | awaitReady c => trivial
        | pause millis => trivial
        | _ => cases call
      have there (t : Errand) (ht : t ∈ x.errands) : ∃ u ∈ (x.enter p).errands,
          u.process = t.process := ⟨t, List.mem_append_left _ ht, rfl⟩
      refine ⟨fun u hu => ?_, fun t ht => ?_⟩
      · rcases List.mem_append.mp hu with before | new
        · exact attuned.apt u before
        · rw [List.mem_singleton.mp new]
          exact enters
      · exact (attuned.stances t ht).mono (isCalled_mono there) (isCalled_mono there)
    · exact attuned
  | others store => exact attuned.of_session rfl rfl
  | carryOut i =>
    obtain ⟨e, does⟩ := x.step_does (.carryOut i)
    generalize x.step (.carryOut i) = y at does ⊢
    cases does with
    | nothing => exact attuned
    | carries i split => exact attuned.of_session rfl (by simp [split])
  | answer i oracle =>
    obtain ⟨e, does⟩ := x.step_does (.answer i oracle)
    generalize x.step (.answer i oracle) = y at does ⊢
    cases does with
    | nothing => exact attuned
    | answers i oracle split => exact attuned.of_session rfl (by simp [split])

theorem run (config : Settings) (store : MemoryStore) {moves : List Move}
    (unaided : ∀ m ∈ moves, m.isUnaided = true)
    (keepsUp : (start (.create config) store).throughout keepsUp moves = true) :
    ((start (.create config) store).run moves).Attuned := by
  induction moves using List.reverseRecOn with
  | nil => exact ⟨fun t ht => absurd ht List.not_mem_nil, fun t ht => absurd ht List.not_mem_nil⟩
  | append_singleton moves m ih =>
    have before : ∀ n ∈ moves, n.isUnaided = true :=
      fun n hn => unaided n (List.mem_append_left _ hn)
    rw [throughout_concat, Bool.and_eq_true] at keepsUp
    have live := (tended_run config store unaided).live
    rw [run_concat] at live ⊢
    exact (ih before keepsUp.1).step (tended_run config store before)
      (unaided m (List.mem_append_right _ (List.mem_singleton_self m))) keepsUp.2 live

end Attuned

/-- **Autosave settings reach every context.**  In every run in which the host leaves it to the
manager to start, to stop and to set coordinators and to load and to close contexts, and in which no
call that passes a setting on is overtaken by one that was called later: while no such call is under
way, every coordinator of a context in use is active just if autosave is on and the context is
ready, and its interval is the one that was set last, raised to the shortest one that there is.
What else is under way makes no difference, nor whether first loads succeed or fail and when. -/
theorem settings_reach_all (config : Settings) (store : MemoryStore) {moves : List Move}
    (unaided : ∀ m ∈ moves, m.isUnaided = true)
    (keepsUp : (start (.create config) store).throughout keepsUp moves = true) :
    let x := (start (.create config) store).run moves
    let s := x.session
    ∀ t ∈ s.manager.tracked,
      (x.toSwitch = false →
        (s.coordinator t.coordinator).active =
          (s.manager.settings.enabled && (s.context t.context).isReady)) ∧
      (x.toTune = false →
        (s.coordinator t.coordinator).configured =
          Autosave.raisedInterval s.manager.settings.interval) := by
  intro x s t there
  have attuned := (Attuned.run config store unaided keepsUp).stances t there
  have owner : (s.coordinator t.coordinator).context = t.context :=
    (made_of_tracked config store moves there).owner
  refine ⟨fun none => ?_, fun none => ?_⟩
  · rw [← owner]
    have ready := attuned.ready
    have active := fun isReady => (attuned.active isReady).resolve_right (by simp [x, none])
    show (s.stance t.coordinator).active = (_ && (s.stance t.coordinator).ready)
    cases isReady : (s.stance t.coordinator).ready with
    | true => rw [active isReady, Bool.and_true]
    | false =>
      rw [Bool.and_false, Bool.eq_false_iff]
      intro isActive
      rw [ready isActive] at isReady
      cases isReady
  · exact attuned.interval.resolve_right (by simp [x, none])

/-- A document is opened while autosave is off, and its file is about to be read. -/
def opensUnsaved : List Move :=
  [.deed (.setRegistry .sample), .call (.open "a" "editor" none)] ++ goes 0 4

/-- Before the file is read autosave is switched on, with an interval that is too short; and when it
has been read, another document is opened. -/
def setsWhileLoading : List Move :=
  opensUnsaved ++ [.call (.setAutosave true), .call (.setInterval (.ofMillis 1))] ++
    goes 1 2 ++ goes 1 2 ++ [.carryOut 0, .go 0 timely, .call (.open "b" "console" none)] ++
    goes 1 4

theorem settings_reach_all_setsWhileLoading :
    let config : Settings := { autosave := { enabled := false } }
    let x := (start (.create config) Commons.firstStore).run setsWhileLoading
    (∀ m ∈ setsWhileLoading, m.isUnaided = true) ∧
      (start (.create config) Commons.firstStore).throughout keepsUp setsWhileLoading = true ∧
      x.session.manager.tracked = [⟨0, 0⟩, ⟨1, 1⟩] ∧
      x.session.manager.settings = { enabled := true, interval := .ofMillis 1 } ∧
      (x.session.coordinator 0).active = true ∧ (x.session.coordinator 1).active = false ∧
      (x.session.coordinator 1).configured = .ofSeconds 1 := by
  have unaided : ∀ m ∈ setsWhileLoading, m.isUnaided = true := by decide +kernel
  have keepsUp : (start (.create { autosave := { enabled := false } })
      Commons.firstStore).throughout keepsUp setsWhileLoading = true := by decide +kernel
  have reaches := settings_reach_all _ Commons.firstStore unaided keepsUp
  have first := (reaches ⟨0, 0⟩ (by decide +kernel)).1 (by decide +kernel)
  have second := reaches ⟨1, 1⟩ (by decide +kernel)
  refine ⟨unaided, keepsUp, by decide +kernel, by decide +kernel, ?_, ?_, ?_⟩
  · exact first.trans (by decide +kernel)
  · exact (second.1 (by decide +kernel)).trans (by decide +kernel)
  · exact (second.2 (by decide +kernel)).trans (by decide +kernel)

/-- Autosave is switched on and off again and the interval is set twice, while the document is open.
The call that was made later is the first to pass its setting on. -/
def overtakes : List Move :=
  opensUnsaved ++ [.carryOut 0, .go 0 timely] ++
    [.call (.setAutosave true), .go 0 timely, .call (.setAutosave false), .go 1 timely,
      .go 1 timely, .go 0 timely] ++
    [.call (.setInterval (.ofSeconds 60)), .go 1 timely, .call (.setInterval (.ofSeconds 30)),
      .go 2 timely, .go 2 timely, .go 1 timely]

/-- **A call that was overtaken.**  No call is under way any more and no first load, autosave is off
and the interval is the later one; but the coordinator is active and its interval is the earlier
one. -/
theorem settings_overtaken :
    let x := (start (.create { autosave := { enabled := false } }) Commons.firstStore).run overtakes
    let s := x.session
    (∀ m ∈ overtakes, m.isUnaided = true) ∧
      (∀ t ∈ x.errands, t.process.isManager = false ∧ t.process.load? = none) ∧
      s.manager.tracked = [⟨0, 0⟩] ∧
      s.manager.settings = { enabled := false, interval := .ofSeconds 30 } ∧
      (s.context 0).isReady = true ∧ (s.coordinator 0).active = true ∧
      (s.coordinator 0).configured = .ofSeconds 60 := by
  decide +kernel

end Traffic

end Folio
