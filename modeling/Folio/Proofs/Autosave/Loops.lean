/-
# One timer loop

A coordinator that is started gets a new loop, and what loop may run is noted by its number; a loop
that was stopped stays where it is until it wakes up, and then does nothing more.  So several loops
of a coordinator can be under way, of which those that still may fire are to be told from the others
(`Coordinator.Timed`): there is one while the coordinator is active, and none otherwise.  All loops
that are under way have smaller numbers than the next one that is started, so that no loop is ever
taken for another.

A firing begins one attempt and leaves the loop as it is.  A coordinator whose context is disposed
does not become active again once it is not.
-/
import Folio.Proofs.Autosave.Permission
import Folio.Proofs.Session.FirstLoads

namespace Folio

/-! ## 1. A coordinator and its loops -/

namespace Coordinator

/-- What tells which loop of a coordinator may run. -/
def gear (c : Coordinator) : Bool × Option Nat × Nat := (c.active, c.loop, c.loopCount)

/-- How it is stopped depends on nothing else. -/
theorem gear_stop {c d : Coordinator} (same : c.gear = d.gear) : c.stop.gear = d.stop.gear := by
  have count : c.loopCount = d.loopCount := congrArg (·.2.2) same
  simp [gear, stop, count]

/-- **The loops of a coordinator that are under way**, by their numbers: one may run if the
coordinator is active, and none otherwise; and the next loop will be a new one. -/
structure Timed (c : Coordinator) (loops : List Nat) : Prop where
  counted : loops.countP c.runs = c.active.toNat
  below : ∀ n ∈ loops, n < c.loopCount
  current : ∀ n ∈ c.loop, n < c.loopCount

namespace Timed

variable {c d : Coordinator} {loops : List Nat} {n : Nat}

/-- A coordinator that was not made has no loop. -/
theorem unmade : Timed default [] where
  counted := rfl
  below n hn := by cases hn
  current n hn := by cases hn

theorem congr (timed : c.Timed loops) (same : d.gear = c.gear) : d.Timed loops := by
  obtain ⟨active, loop, loopCount⟩ : d.active = c.active ∧ d.loop = c.loop ∧
      d.loopCount = c.loopCount := by simpa [gear] using same
  have runs : d.runs = c.runs := by funext m; rw [runs, loop, runs]
  exact ⟨by rw [runs, active]; exact timed.counted, by rw [loopCount]; exact timed.below,
    by rw [loop, loopCount]; exact timed.current⟩

theorem perm (timed : c.Timed loops) {others : List Nat} (same : loops.Perm others) :
    c.Timed others where
  counted := (same.countP_eq _).symm.trans timed.counted
  below m hm := timed.below m (same.mem_iff.mpr hm)
  current := timed.current

/-- No loop of a coordinator that is stopped may run. -/
theorem stop (timed : c.Timed loops) : c.stop.Timed loops where
  counted := List.countP_eq_zero.mpr fun m _ runs => by cases runs
  below := timed.below
  current m hm := by cases hm

/-- **A coordinator is started**: its loop is new, and is the one that may run. -/
theorem start (timed : c.Timed loops) {closed : Bool} (started : c.start closed = (d, some n)) :
    d.Timed (loops ++ [n]) := by
  unfold Coordinator.start at started
  split at started
  · cases started
  · cases started
    refine ⟨?_, fun m hm => ?_, fun m hm => ?_⟩
    · rw [List.countP_append, List.countP_eq_zero.mpr fun m hm runs => ?_]
      · simp [runs]
      · obtain rfl : c.loopCount = m := by simpa [Coordinator.runs] using runs
        exact absurd (timed.below _ hm) (Nat.lt_irrefl _)
    · rcases List.mem_append.mp hm with old | new
      · exact Nat.lt_succ_of_lt (timed.below m old)
      · rw [List.mem_singleton.mp new]
        exact Nat.lt_succ_self _
    · obtain rfl : c.loopCount = m := by simpa using hm
      exact Nat.lt_succ_self _

/-- A loop that was stopped ends. -/
theorem drop (timed : c.Timed (n :: loops)) (stopped : c.runs n = false) : c.Timed loops where
  counted := by
    have counted := timed.counted
    rwa [List.countP_cons_of_neg (by simp [stopped])] at counted
  below m hm := timed.below m (List.mem_cons_of_mem n hm)
  current := timed.current

/-- A loop that may run is of a coordinator that is active. -/
theorem active (timed : c.Timed loops) (there : n ∈ loops) (runs : c.runs n = true) :
    c.active = true := by
  have some_one : 0 < loops.countP c.runs := List.countP_pos_iff.mpr ⟨n, there, runs⟩
  rw [timed.counted] at some_one
  cases active : c.active with
  | true => rfl
  | false =>
    rw [active] at some_one
    exact absurd some_one (Nat.lt_irrefl 0)

/-- The loop ends that may run. -/
theorem endLoop (timed : c.Timed (n :: loops)) (runs : c.runs n = true) :
    c.endLoop.Timed loops where
  counted := by
    have counted := timed.counted
    rw [List.countP_cons_of_pos runs, timed.active List.mem_cons_self runs] at counted
    exact Nat.succ.inj counted
  below m hm := timed.below m (List.mem_cons_of_mem n hm)
  current := timed.current

end Timed

end Coordinator

/-! ## 2. Sessions -/

/-- The number of the loop of a coordinator, if the process is one. -/
def Process.loopOf? (k : CoordinatorId) : Process → Option Nat
  | .loop j number _ => if j = k then some number else none
  | .ticking j number _ _ _ => if j = k then some number else none
  | _ => none

namespace Session

variable {s t u : Session} {k : CoordinatorId} {loops : List Nat}

/-- The loops of a coordinator that have been started. -/
def startedLoops (s : Session) (k : CoordinatorId) : List Nat :=
  s.started.filterMap fun work => (Process.ofBackground work).loopOf? k

/-- **The loops of a coordinator**: those under way, and those that have been started. -/
def Timed (s : Session) (k : CoordinatorId) (loops : List Nat) : Prop :=
  (s.coordinator k).Timed (loops ++ s.startedLoops k)

/-- **The coordinator keeps its loops, or is stopped.** -/
structure Eases (k : CoordinatorId) (s t : Session) : Prop where
  gear : (t.coordinator k).gear = (s.coordinator k).gear ∨
    (t.coordinator k).gear = (s.coordinator k).stop.gear
  started : t.startedLoops k = s.startedLoops k

theorem Eases.timed (eases : Eases k s t) (timed : s.Timed k loops) : t.Timed k loops := by
  rw [Timed, eases.started]
  rcases eases.gear with same | stopped
  · exact timed.congr same
  · exact timed.stop.congr stopped

namespace Eases

theorem of_gear (gear : (t.coordinator k).gear = (s.coordinator k).gear)
    (started : t.startedLoops k = s.startedLoops k) : Eases k s t := ⟨.inl gear, started⟩

theorem of_eq (coordinators : t.coordinators = s.coordinators) (started : t.started = s.started) :
    Eases k s t :=
  of_gear (by rw [coordinator, coordinators, coordinator])
    (by rw [startedLoops, started, startedLoops])

theorem refl (s : Session) : Eases k s s := of_eq rfl rfl

theorem trans (h : Eases k s t) (h' : Eases k t u) : Eases k s u := by
  refine ⟨?_, h'.started.trans h.started⟩
  rcases h.gear with first | first <;> rcases h'.gear with second | second
  · exact .inl (second.trans first)
  · exact .inr (second.trans (Coordinator.gear_stop first))
  · exact .inr (second.trans first)
  · exact .inr (second.trans (Coordinator.gear_stop (d := (s.coordinator k).stop) first))

/-- A coordinator is replaced by one with the same loops. -/
theorem setCoordinator {j : CoordinatorId} {coordinator : Coordinator}
    (same : coordinator.gear = (s.coordinator j).gear) :
    Eases k s (s.setCoordinator j coordinator) :=
  of_gear (looks_setCoordinator Coordinator.gear same k) rfl

theorem stopCoordinator (s : Session) (j : CoordinatorId) : Eases k s (s.stopCoordinator j) := by
  by_cases same : k = j
  · subst same
    by_cases made : k < s.coordinators.length
    · exact ⟨.inr (by rw [Session.stopCoordinator, coordinator_setCoordinator _ made]), rfl⟩
    · have kept : s.coordinators.set k (s.coordinator k).stop = s.coordinators :=
        List.set_eq_of_length_le (Nat.le_of_not_lt made)
      exact of_eq kept rfl
  · exact of_gear (by rw [Session.stopCoordinator, coordinator_setCoordinator_of_ne _ same]) rfl

theorem setCoordinatorInterval (s : Session) (j : CoordinatorId) (interval : Duration) :
    Eases k s (s.setCoordinatorInterval j interval) := by
  refine setCoordinator ?_
  unfold Coordinator.setInterval
  simp only
  split <;> rfl

/-- A new coordinator has no loop, and neither has one that was not made. -/
theorem addCoordinator (s : Session) (c : ContextId) (interval : Duration) :
    Eases k s (s.addCoordinator (.create c interval)).1 :=
  have same : (Coordinator.create c interval).gear = Coordinator.gear default := rfl
  of_gear (looks_addCoordinator Coordinator.gear same k) rfl

theorem start (s : Session) {work : Background}
    (other : (Process.ofBackground work).loopOf? k = none) : Eases k s (s.start work) := by
  refine of_gear rfl ?_
  simp [startedLoops, Session.start, other]

theorem foldl {α : Type} {f : Session → α → Session}
    (h : ∀ (s : Session) (a : α), Eases k s (f s a)) (l : List α) (s : Session) :
    Eases k s (l.foldl f s) :=
  foldl_related (R := Eases k) refl trans h l s

theorem setBindings (s : Session) (bindings : List Binding) : Eases k s (s.setBindings bindings) :=
  of_eq rfl rfl

theorem retireWidget (s : Session) (w : WidgetId) : Eases k s (s.retireWidget w) := by
  cases w <;> exact of_eq rfl rfl

theorem newTracked (s : Session) (path : String) (model : ModelFactory) (isNew : Bool) :
    Eases k s (s.newTracked path model isNew).1 := by
  have context (c : Context) : Eases k s (s.addContext c).1 := of_eq rfl rfl
  exact ((context _).trans (addCoordinator _ s.contexts.length _)).trans (start _ rfl)

/-- **Who closes a context** stops its coordinator, and touches no other. -/
theorem retireContext (s : Session) (t : Tracked) : Eases k s (s.retireContext t) := by
  have withdrawn : Eases k s (s.withdraw t.context) :=
    (setBindings s _).trans (foldl (fun s (b : Binding) => retireWidget s b.widget) _ _)
  rw [retireContext_eq]
  exact (withdrawn.trans (stopCoordinator _ t.coordinator)).trans (of_eq rfl rfl)

theorem followAll (s : Session) (source target : String) :
    Eases k s (Manager.followAll s source target) := by
  refine foldl (fun s t => ?_) s.manager.tracked s
  split
  · exact of_eq rfl rfl
  · exact refl s

theorem afterClosing {after : AfterClosing} (h : after.Makes s t) : Eases k s t := by
  cases h with
  | nothing => exact refl s
  | shows here => exact of_eq rfl rfl
  | loads nowhere => exact (newTracked s _ _ false).trans (of_eq rfl rfl)
  | creates => exact (newTracked s _ _ true).trans (of_eq rfl rfl)
  | follows => exact followAll s _ _

/-- **Only a call that switches autosave on starts a coordinator.** -/
theorem stage {stage : Stage} (h : stage.Makes s t)
    (other : ∀ enabled, stage ≠ .reading (.setAutosave enabled)) : Eases k s t := by
  cases h with
  | nothing => exact refl s
  | setsAutosave => exact of_eq rfl rfl
  | setsInterval => exact of_eq rfl rfl
  | @switches enabled => exact absurd rfl (other enabled)
  | tunes => exact foldl (fun s (t : Tracked) => setCoordinatorInterval s t.coordinator _) _ s
  | takes kept => exact of_eq rfl rfl
  | retires => exact retireContext s _
  | ends makes => exact afterClosing makes
  | retiresLast makes => exact (retireContext s _).trans (afterClosing makes)
  | binds => exact of_eq rfl rfl
  | @unbinds w confirmed bindings =>
    exact (setBindings s bindings).trans (retireWidget _ w)
  | @unbindsLast w confirmed bindings keep kept =>
    exact ((setBindings s bindings).trans (retireWidget _ w)).trans (of_eq rfl rfl)
  | @clears last => cases last <;> exact of_eq rfl rfl

/-- What the host does to a session, other than start a coordinator. -/
theorem deed (s : Session) {d : Deed} (other : ∀ j, d ≠ .startCoordinator j) :
    Eases k s (d.apply s) := by
  cases d with
  | newCoordinator c interval => exact addCoordinator s c interval
  | startCoordinator j => exact absurd rfl (other j)
  | stopCoordinator j => exact stopCoordinator s j
  | setInterval j interval => exact setCoordinatorInterval s j interval
  | disposeWidget w => cases w <;> exact of_eq rfl rfl
  | _ => exact of_eq rfl rfl

end Eases

namespace Timed

theorem perm (timed : s.Timed k loops) {others : List Nat} (same : loops.Perm others) :
    s.Timed k others :=
  Coordinator.Timed.perm timed (same.append_right _)

/-- **A coordinator that was made is started.** -/
theorem startCoordinator (timed : s.Timed k loops) {j : CoordinatorId}
    (made : j < s.coordinators.length) : (s.startCoordinator j).Timed k loops := by
  unfold Session.startCoordinator
  simp only
  split
  · exact timed
  · next new number started =>
    by_cases same : j = k
    · subst same
      have before : (s.coordinator j).Timed (loops ++ s.startedLoops j) := timed
      have after := before.start started
      have mine : (s.setCoordinator j new).coordinator j = new :=
        coordinator_setCoordinator new made
      rw [Timed, Session.startedLoops]
      show ((s.setCoordinator j new).coordinator j).Timed _
      rw [mine]
      simpa [Session.startedLoops, Session.start, Session.setCoordinator, Process.ofBackground,
        Process.loopOf?] using after
    · have other : (s.setCoordinator j new).coordinator k = s.coordinator k :=
        coordinator_setCoordinator_of_ne new (Ne.symm same)
      refine Eases.timed (Eases.of_gear ?_ ?_) timed
      · exact congrArg Coordinator.gear other
      · simp [Session.startedLoops, Session.start, Session.setCoordinator, Process.ofBackground,
          Process.loopOf?, same]

/-- **Autosave is switched on or off** for contexts whose coordinators were made. -/
theorem switches (timed : s.Timed k loops) (enabled : Bool) {tracked : List Tracked}
    (made : ∀ t ∈ tracked, t.coordinator < s.coordinators.length) :
    (tracked.foldl (Manager.switchAutosave enabled) s).Timed k loops := by
  induction tracked generalizing s with
  | nil => exact timed
  | cons t rest ih =>
    have first : (Manager.switchAutosave enabled s t).Timed k loops := by
      unfold Manager.switchAutosave
      split
      · exact (Eases.stopCoordinator s t.coordinator).timed timed
      · split
        · exact timed.startCoordinator (made t List.mem_cons_self)
        · exact timed
    refine ih first fun u hu => ?_
    rw [(LeavesContexts.switchAutosave enabled s t).coordinators_length]
    exact made u (List.mem_cons_of_mem t hu)

/-- A loop that was stopped, of whatever coordinator, ends. -/
theorem drop {j : CoordinatorId} {number : Nat}
    (timed : s.Timed k ((if j = k then some number else none).toList ++ loops))
    (stopped : (s.coordinator j).runs number = false) : s.Timed k loops := by
  split at timed
  · next same =>
    subst same
    exact Coordinator.Timed.drop timed stopped
  · exact timed

/-- A loop that may run, of whatever coordinator, ends because the context is disposed. -/
theorem endLoop {j : CoordinatorId} {number : Nat}
    (timed : s.Timed k ((if j = k then some number else none).toList ++ loops))
    (runs : (s.coordinator j).runs number = true) :
    (s.setCoordinator j (s.coordinator j).endLoop).Timed k loops := by
  split at timed
  · next same =>
    subst same
    rw [Session.Timed, coordinator_setCoordinator _ (made_of_runs runs)]
    exact Coordinator.Timed.endLoop timed runs
  · next other =>
    have kept := coordinator_setCoordinator_of_ne (s := s) (s.coordinator j).endLoop (Ne.symm other)
    exact (Eases.of_gear (congrArg Coordinator.gear kept) rfl).timed timed

end Timed

end Session

/-! ## 3. Processes -/

namespace Attempt

/-- An attempt does not touch the loops of its coordinator. -/
theorem gear_resume (s : Scene) (a : Attempt) (answer : a.need.Answer) :
    (Attempt.resume s a answer).1.coordinator.gear = s.coordinator.gear := by
  have same := congrArg Coordinator.gear (core_resume s a answer)
  exact same

end Attempt

namespace Process

variable {s : Session} {k : CoordinatorId} {loops : List Nat}

/-- A loop goes on as the same loop, and nothing else goes on as one. -/
theorem loopOf?_of_goesOn {p q : Process} (h : GoesOn s p q) : q.loopOf? k = p.loopOf? k := by
  cases h <;> rfl

/-- A call of the host is no loop. -/
theorem loopOf?_of_isCall {p : Process} (call : p.isCall = true) (k : CoordinatorId) :
    p.loopOf? k = none := by
  cases p with
  | loop j number place => cases call
  | ticking j number place c interval => cases call
  | _ => rfl

/-- **A process that is no loop** leaves the loops as they are, or starts one. -/
theorem timed_makes {p : Process} {t : Session} (h : Makes s p t) (timed : s.Timed k loops)
    (sound : p.IsSound s)
    (other : ∀ j number place c interval, p ≠ .ticking j number place c interval) :
    t.Timed k loops := by
  cases h with
  | nothing => exact timed
  | called c call reply => exact (Session.Eases.of_eq rfl rfl).timed timed
  | loads j call reply => exact (Session.Eases.of_eq rfl rfl).timed timed
  | starts j call reply =>
    have loaded (c : ContextId) (context : Context) : (s.setContext c context).Timed k loops :=
      (Session.Eases.of_eq rfl rfl).timed timed
    exact (loaded _ _).startCoordinator sound
  | fires runs => exact (other _ _ _ _ _ rfl).elim
  | reschedules runs => exact (other _ _ _ _ _ rfl).elim
  | ends runs => exact (other _ _ _ _ _ rfl).elim
  | acts j a given =>
    have context (c : ContextId) (context : Context) : Session.Eases k s (s.setContext c context) :=
      .of_eq rfl rfl
    refine ((context _ _).trans (.setCoordinator ?_)).timed timed
    exact Attempt.gear_resume (s.scene j) a given

/-- **A step of a process** leaves the loops of every coordinator as they are to be. -/
theorem timed_resume {p : Process} (timed : s.Timed k ((p.loopOf? k).toList ++ loops))
    (sound : p.IsSound s) (made : ∀ t ∈ s.manager.tracked, t.coordinator < s.coordinators.length)
    (answer : p.need.Answer) :
    (p.resume s answer).1.Timed k
      (((p.resume s answer).2.elim (·.loopOf? k) fun _ => none).toList ++ loops) := by
  cases p with
  | loop j number place =>
    simp only [resume]
    split
    · exact timed
    · next stopped => exact timed.drop (by simpa using stopped)
  | ticking j number place c interval =>
    simp only [resume, resumeLoop]
    split
    · next stopped => exact timed.drop (by simpa using stopped)
    · next running =>
      have runs : (s.coordinator j).runs number = true := by simpa using running
      cases answer with
      | due => exact (Session.Eases.start s rfl).timed timed
      | rescheduled =>
        have same : Session.Eases k s (s.setCoordinator j (s.coordinator j).takeReschedule) :=
          .setCoordinator rfl
        exact same.timed timed
      | announced =>
        simp only
        split
        · exact timed.endLoop runs
        · exact timed
  | manager stage =>
    have after : (stage.resume s answer).1.Timed k loops := by
      by_cases switches : ∃ enabled, stage = .reading (.setAutosave enabled)
      · obtain ⟨enabled, rfl⟩ := switches
        exact timed.switches enabled made
      · have eases : Session.Eases k s (stage.resume s answer).1 :=
          .stage (stage.makes s answer) fun enabled same => switches ⟨enabled, same⟩
        exact eases.timed timed
    simp only [resume]
    split <;> (next same => rw [same] at after; exact after)
  | _ =>
    have after := timed_makes (makes s _ answer (by simp)) timed sound (by simp)
    have none : ((resume s _ answer).2.elim (·.loopOf? k) fun _ => none) = none := by
      cases next : (resume s _ answer).2 with
      | inl q => exact loopOf?_of_goesOn (goesOn next)
      | inr outcome => rfl
    rw [none]
    exact after

end Process

/-! ## 4. Runs -/

namespace Traffic

variable {x : Traffic} {k : CoordinatorId}

/-- The loops of a coordinator that are under way, by their numbers. -/
def loops (x : Traffic) (k : CoordinatorId) : List Nat :=
  x.errands.filterMap fun t => t.process.loopOf? k

/-- **How many timer loops of a coordinator can still fire.** -/
def timers (x : Traffic) (k : CoordinatorId) : Nat :=
  (x.loops k).countP (x.session.coordinator k).runs

/-- **The host starts a coordinator only when it has been made.** -/
def startsMade (x : Traffic) : Move → Bool
  | .deed (.startCoordinator k) => decide (k < x.session.coordinators.length)
  | _ => true

/-- The loops that enter with the background work of a session. -/
theorem loops_absorb (x : Traffic) (session : Session) (errands : List Errand)
    (k : CoordinatorId) :
    (x.absorb session errands).loops k =
      (errands.filterMap fun t => t.process.loopOf? k) ++ session.startedLoops k := by
  rw [loops, absorb, List.filterMap_append, filterMap_entering _ _ (Process.loopOf? k)]
  rfl

/-- **The loops of a coordinator are as they are to be.** -/
def Timed (x : Traffic) (k : CoordinatorId) : Prop :=
  (x.session.coordinator k).Timed (x.loops k)

theorem timed_absorb {session : Session} {errands : List Errand}
    (timed : session.Timed k (errands.filterMap fun t => t.process.loopOf? k)) :
    (x.absorb session errands).Timed k := by
  rw [Timed, loops_absorb]
  exact timed

theorem Timed.step (timed : x.Timed k) (sound : x.IsSound)
    (made : ∀ t ∈ x.session.manager.tracked, t.coordinator < x.session.coordinators.length)
    {m : Move} (starts : x.startsMade m = true) : (x.step m).Timed k := by
  have here : x.session.Timed k (x.loops k) := by
    rw [Session.Timed, Session.startedLoops, sound.started, List.filterMap_nil, List.append_nil]
    exact timed
  obtain ⟨e, does⟩ := x.step_does m
  generalize x.step m = y at does ⊢
  cases does with
  | nothing => exact timed
  | deed d =>
    refine timed_absorb ?_
    cases d with
    | startCoordinator j => exact here.startCoordinator (of_decide_eq_true starts)
    | _ => exact (Session.Eases.deed x.session (by simp)).timed here
  | @enter p call =>
    have none : p.loopOf? k = none := Process.loopOf?_of_isCall call k
    simpa [Timed, loops, Traffic.enter, none] using timed
  | others store => exact timed
  | carries i split => simpa [Timed, loops, split, List.filterMap_cons] using timed
  | answers i oracle split => simpa [Timed, loops, split, List.filterMap_cons] using timed
  | @goes i oracle before after t answer split =>
    have front := perm_of_split split
    have there : t ∈ x.errands := front.mem_iff.mpr List.mem_cons_self
    have mine : (x.loops k).Perm ((t.process.loopOf? k).toList ++
        (before ++ after).filterMap fun t => t.process.loopOf? k) := by
      have same := front.filterMap fun t => t.process.loopOf? k
      rw [List.filterMap_cons] at same
      cases hn : t.process.loopOf? k <;> simpa [loops, hn] using same
    have after := Process.timed_resume (here.perm mine) (sound.errands t there) made answer
    refine timed_absorb (Session.Timed.perm after ?_)
    have next : (Errand.next? t.number (t.process.resume x.session answer).2).toList.filterMap
        (fun t => t.process.loopOf? k) =
        ((t.process.resume x.session answer).2.elim (·.loopOf? k) fun _ => none).toList := by
      cases (t.process.resume x.session answer).2 with
      | inl q => cases hq : q.loopOf? k <;> simp [Errand.next?, hq]
      | inr outcome => rfl
    simp only [List.filterMap_append, next]
    exact List.perm_append_comm

/-- **Exactly one loop may run while a coordinator is active**, in every run. -/
theorem timed_run (config : Settings) (store : MemoryStore) {moves : List Move}
    (starts : (start (.create config) store).throughout startsMade moves = true)
    (k : CoordinatorId) :
    ((start (.create config) store).run moves).Timed k := by
  induction moves using List.reverseRecOn with
  | nil => exact Coordinator.Timed.unmade
  | append_singleton moves m ih =>
    rw [throughout_concat] at starts
    obtain ⟨before, here⟩ := Bool.and_eq_true_iff.mp starts
    rw [run_concat]
    exact (ih before).step (sound_run config store moves)
      (fun t ht => (made_of_tracked config store moves ht).coordinator) here

end Traffic

/-! ## 5. Firings -/

/-- **The timer of a coordinator fires**: a loop of it wakes up because its time is over, and it is
the one that may run. -/
def Event.firesFor (k : CoordinatorId) : Event → Bool
  | .stepped _ (.ticking j number _ _ _) .due s => j == k && (s.coordinator j).runs number
  | _ => false

/-- **An attempt of a coordinator begins.** -/
def Event.beginsFor (k : CoordinatorId) : Event → Bool
  | .stepped _ (.attempt j .due) _ _ => j == k
  | _ => false

/-- An attempt of the coordinator is to begin. -/
def Process.isDueFor (k : CoordinatorId) : Process → Bool
  | .attempt j .due => j == k
  | _ => false

namespace Session

variable {s t : Session}

/-- The attempts of a coordinator that have been started. -/
def startedAttempts (s : Session) (k : CoordinatorId) : Nat :=
  s.started.countP fun work => (Process.ofBackground work).isDueFor k

/-- An edit starts no attempt. -/
theorem Edit.startedAttempts (h : s.Edit t) (k : CoordinatorId) :
    t.startedAttempts k = s.startedAttempts k := by
  rcases h.started with same | ⟨isNew, same⟩ | ⟨j, number, place, same⟩ <;>
    simp [Session.startedAttempts, same, Process.ofBackground, Process.isDueFor]

theorem startedAttempts_deed (s : Session) (d : Deed) (k : CoordinatorId) :
    (d.apply s).startedAttempts k = s.startedAttempts k := by
  cases d with
  | startCoordinator j => exact (Edit.startCoordinator j).startedAttempts k
  | disposeWidget w => cases w <;> rfl
  | _ => rfl

end Session

namespace Process

theorem startedAttempts_makes {s t : Session} {p : Process} (h : Makes s p t)
    (other : ∀ j number place c interval, p ≠ .ticking j number place c interval)
    (k : CoordinatorId) : t.startedAttempts k = s.startedAttempts k := by
  cases h with
  | starts j call reply => exact (Session.Edit.startCoordinator j).startedAttempts k
  | fires runs => exact (other _ _ _ _ _ rfl).elim
  | _ => rfl

/-- **Only a firing starts an attempt**, and it starts one. -/
theorem startedAttempts_resume (s : Session) (p : Process) (answer : p.need.Answer)
    (k : CoordinatorId) (n : Nat) :
    (p.resume s answer).1.startedAttempts k =
      s.startedAttempts k + ((Event.stepped n p answer s).firesFor k).toNat := by
  cases p with
  | ticking j number place c interval =>
    simp only [resume, resumeLoop]
    split
    · next stopped =>
      have quiet : (s.coordinator j).runs number = false := by simpa using stopped
      cases answer <;> simp [Event.firesFor, finish, quiet]
    · next running =>
      have runs : (s.coordinator j).runs number = true := by simpa using running
      cases answer with
      | due =>
        cases same : j == k <;>
          simp [Event.firesFor, runs, same, Session.startedAttempts, Session.start, ofBackground,
            isDueFor]
      | rescheduled => rfl
      | announced =>
        simp only
        split <;> rfl
  | _ =>
    exact keeps (P := fun t => t.startedAttempts k = s.startedAttempts k)
      (fun edit same => (edit.startedAttempts k).trans same)
      (fun makes => startedAttempts_makes makes (by simp) k) rfl answer

/-- **Who fires** is a loop that may run, and leaves its coordinator as it is. -/
theorem fires {s : Session} {p : Process} {answer : p.need.Answer} {k : CoordinatorId} {n : Nat}
    (fires : (Event.stepped n p answer s).firesFor k = true) :
    ∃ number, p.loopOf? k = some number ∧ (s.coordinator k).runs number = true ∧
      (p.resume s answer).1.coordinator k = s.coordinator k := by
  cases p with
  | ticking j number place c interval =>
    cases answer with
    | due =>
      obtain ⟨same, runs⟩ := Bool.and_eq_true_iff.mp fires
      obtain rfl : j = k := by simpa using same
      refine ⟨number, if_pos rfl, runs, ?_⟩
      simp only [resume, resumeLoop, runs, Bool.not_true, Bool.false_eq_true, if_false]
      rfl
    | _ => cases fires
  | attempt j a => cases a <;> cases fires
  | _ => cases fires

/-- Who is to begin does so when it goes on. -/
theorem beginsFor_stepped (k : CoordinatorId) (n : Nat) (p : Process) (answer : p.need.Answer)
    (s : Session) : (Event.stepped n p answer s).beginsFor k = p.isDueFor k := by
  cases p with
  | attempt j a => cases a <;> rfl
  | _ => rfl

/-- **Who has begun does not begin again.** -/
theorem isDueFor_of_goesOn {s : Session} {p q : Process} (h : GoesOn s p q) (k : CoordinatorId) :
    q.isDueFor k = false := by
  cases h with
  | @attempts j a next answer follows =>
    rcases Attempt.next_resume _ a answer next follows with ⟨_, rfl⟩ | ⟨_, rfl⟩ | rfl | rfl <;> rfl
  | _ => rfl

end Process

namespace Traffic

variable {x : Traffic} {k : CoordinatorId}

/-- How often the timer of a coordinator has fired. -/
def firings (x : Traffic) (k : CoordinatorId) : Nat := x.log.countP (·.firesFor k)

/-- How many attempts of a coordinator have begun. -/
def begun (x : Traffic) (k : CoordinatorId) : Nat := x.log.countP (·.beginsFor k)

/-- How many attempts of a coordinator are to begin. -/
def due (x : Traffic) (k : CoordinatorId) : Nat := x.errands.countP (·.process.isDueFor k)

theorem due_absorb (x : Traffic) (session : Session) (errands : List Errand) (k : CoordinatorId) :
    (x.absorb session errands).due k =
      errands.countP (·.process.isDueFor k) + session.startedAttempts k := by
  rw [due, absorb, List.countP_append, countP_entering]
  rfl

/-- **Every firing begins one attempt**, or is about to. -/
theorem firings_step (x : Traffic) (none : x.session.started = []) (m : Move)
    (k : CoordinatorId) (even : x.firings k = x.begun k + x.due k) :
    (x.step m).firings k = (x.step m).begun k + (x.step m).due k := by
  have quiet : x.session.startedAttempts k = 0 := by rw [Session.startedAttempts, none]; rfl
  obtain ⟨e, does⟩ := x.step_does m
  generalize x.step m = y at does ⊢
  cases does with
  | nothing => exact even
  | deed d =>
    rw [due_absorb, Session.startedAttempts_deed, quiet]
    exact even
  | @enter p call =>
    have none : p.isDueFor k = false := by
      cases p with
      | attempt j a => cases call
      | _ => rfl
    simpa [firings, begun, due, Traffic.enter, none] using even
  | others store => simpa [firings, begun, due, Event.firesFor, Event.beginsFor] using even
  | carries i split =>
    simpa [firings, begun, due, split, Event.firesFor, Event.beginsFor, List.countP_append,
      List.countP_cons] using even
  | answers i oracle split =>
    simpa [firings, begun, due, split, Event.firesFor, Event.beginsFor, List.countP_append,
      List.countP_cons] using even
  | @goes i oracle before after t answer split =>
    have front := perm_of_split split
    have mine : x.due k =
        (before ++ after).countP (·.process.isDueFor k) + (t.process.isDueFor k).toNat := by
      rw [due, front.countP_eq, List.countP_cons]
      cases t.process.isDueFor k <;> rfl
    have begins : (Event.stepped t.number t.process answer x.session).beginsFor k =
        t.process.isDueFor k := Process.beginsFor_stepped k t.number t.process answer x.session
    have next : (Errand.next? t.number (t.process.resume x.session answer).2).toList.countP
        (·.process.isDueFor k) = 0 := by
      cases goesOn : (t.process.resume x.session answer).2 with
      | inl q => simp [Errand.next?, Process.isDueFor_of_goesOn (Process.goesOn goesOn) k]
      | inr outcome => rfl
    have starts := Process.startedAttempts_resume x.session t.process answer k t.number
    rw [resumed, due_absorb, List.countP_append, next, starts, quiet]
    simp only [firings, begun, absorb, List.countP_append, List.countP_singleton] at even ⊢
    rw [begins]
    cases fires : (Event.stepped t.number t.process answer x.session).firesFor k <;>
      cases due : t.process.isDueFor k <;> simp [due] at mine ⊢ <;> omega

theorem firings_run (config : Settings) (store : MemoryStore) (moves : List Move)
    (k : CoordinatorId) :
    let x := (start (.create config) store).run moves
    x.firings k = x.begun k + x.due k := by
  induction moves using List.reverseRecOn with
  | nil => rfl
  | append_singleton moves m ih =>
    rw [run_concat]
    exact firings_step _ (sound_run config store moves).started m k ih

/-- **A firing leaves the loop that may run**, and there is no second one in the same step. -/
theorem Timed.fires (timed : x.Timed k) {m : Move} (after : (x.step m).Timed k)
    (more : x.firings k < (x.step m).firings k) :
    (x.step m).firings k = x.firings k + 1 ∧ (x.step m).timers k = 1 := by
  have counted : (x.step m).timers k = ((x.step m).session.coordinator k).active.toNat :=
    after.counted
  rw [counted]
  obtain ⟨e, does⟩ := x.step_does m
  have log := does.log
  generalize x.step m = y at does log more ⊢
  have grows : y.firings k = x.firings k + (e.toList.countP (·.firesFor k)) := by
    rw [firings, log, List.countP_append, firings]
  cases does with
  | @goes i oracle before after t answer split =>
    rw [Option.toList_some, List.countP_singleton] at grows
    split at grows
    · next fires =>
      obtain ⟨number, loop, runs, same⟩ := Process.fires fires
      have there : t ∈ x.errands := split ▸ List.mem_append_right _ List.mem_cons_self
      have listed : number ∈ x.loops k := List.mem_filterMap.mpr ⟨t, there, loop⟩
      refine ⟨grows, ?_⟩
      show ((t.process.resume x.session answer).1.coordinator k).active.toNat = 1
      rw [same, Coordinator.Timed.active timed listed runs]
      rfl
    · rw [grows] at more
      exact absurd more (Nat.lt_irrefl _)
  | _ =>
    rw [grows] at more
    exact absurd more (Nat.lt_irrefl _)

/-- **One timer loop.**  In every run in which the host starts only coordinators that were made, one
loop of a coordinator may fire while the coordinator is active, and none otherwise, however often
and in whatever order it is started, stopped and set, and whichever loops that were stopped are
still there.  Every firing begins one attempt and nothing else does, and a move in which the timer
fires leaves one loop that may fire.  Once the context is disposed and the loop has ended, the
coordinator does not become active again, whatever happens later. -/
theorem one_timer_loop (config : Settings) (store : MemoryStore) {moves : List Move}
    (starts : (start (.create config) store).throughout startsMade moves = true)
    (k : CoordinatorId) :
    let x := (start (.create config) store).run moves
    x.timers k = (x.session.coordinator k).active.toNat ∧
      x.firings k = x.begun k + x.due k ∧
      (∀ m, x.firings k < (x.step m).firings k →
        (x.step m).firings k = x.firings k + 1 ∧ (x.step m).timers k = 1) ∧
      (k < x.session.coordinators.length →
        (x.session.coordinator k).context < x.session.contexts.length →
        (x.session.context (x.session.coordinator k).context).isDisposed = true →
        x.timers k = 0 → ∀ later, ((x.run later).session.coordinator k).active = false) := by
  intro x
  have timed : x.Timed k := timed_run config store starts k
  refine ⟨timed.counted, firings_run config store moves k, fun m more => ?_,
    fun made context disposed idle later => ?_⟩
  · -- the host, who may start what was not made, fires nothing
    have goes : x.startsMade m = true := by
      cases m with
      | deed d => exact absurd more (Nat.lt_irrefl _)
      | _ => rfl
    refine timed.fires ?_ more
    exact timed.step (sound_run config store moves)
      (fun t ht => (made_of_tracked config store moves ht).coordinator) goes
  · have inactive : (x.session.coordinator k).active = false := by
      have counted : x.timers k = (x.session.coordinator k).active.toNat := timed.counted
      rw [idle] at counted
      exact Bool.toNat_eq_zero.mp counted.symm
    exact (x.advances_run later).inactive k made context disposed inactive

/-- A coordinator is started, stopped, and started again, and both of its loops wait. -/
def restartsLoop : List Move :=
  loadsFirst ++ startsLoop 0 ++
    [.deed (.stopCoordinator 0), .deed (.startCoordinator 0), .go 1 timely]

/-- The document is disposed, and the loop that may run hears of it. -/
def endsLoop : List Move := restartsLoop ++ [.deed (.disposeContext 0), .go 1 .obliging]

theorem one_timer_loop_restartsLoop :
    let x := (start (.create {}) Commons.firstStore).run restartsLoop
    let y := x.step (.go 1 timely)
    let z := (start (.create {}) Commons.firstStore).run endsLoop
    (start (.create {}) Commons.firstStore).throughout startsMade endsLoop = true ∧
      x.loops 0 = [0, 1] ∧ x.timers 0 = 1 ∧ y.firings 0 = 1 ∧ y.timers 0 = 1 ∧ y.due 0 = 1 ∧
      z.loops 0 = [0] ∧ z.timers 0 = 0 ∧
      ∀ later, ((z.run later).session.coordinator 0).active = false := by
  intro x y z
  have startsFirst : (start (.create {}) Commons.firstStore).throughout startsMade restartsLoop =
      true := by decide +kernel
  have startsAll : (start (.create {}) Commons.firstStore).throughout startsMade endsLoop = true :=
    by decide +kernel
  have first := one_timer_loop {} Commons.firstStore startsFirst 0
  have last := one_timer_loop {} Commons.firstStore startsAll 0
  have fires : x.firings 0 < y.firings 0 := by decide +kernel
  have none : x.firings 0 = 0 := by decide +kernel
  obtain ⟨one, left⟩ := first.2.2.1 (.go 1 timely) fires
  refine ⟨startsAll, by decide +kernel, ?_, ?_, left, by decide +kernel, by decide +kernel,
    by decide +kernel, ?_⟩
  · exact first.1.trans (by decide +kernel)
  · exact one.trans (by rw [none])
  · exact last.2.2.2 (by decide +kernel) (by decide +kernel) (by decide +kernel) (by decide +kernel)

end Traffic

end Folio
