/-
# Saves that outlive an activation

A save that is in flight when its coordinator is stopped completes.  Whether the interval then
adapts to the time that it took is decided when it completes, by whether the coordinator is active.

A coordinator becomes active only with a new loop, and the loops that it has ever started are
counted (`Coordinator.Leads`).  So if no loop has been started since the coordinator was stopped, a
save completes and leaves the coordinator as it is, whenever it began (`discards_recalibration`).
If the coordinator has been started again, it is active, though it is not for the new loop that the
save was begun; the interval adapts to a save of the activation before
(`recalibrates_after_restart`).
-/
import Folio.Proofs.Autosave.Intervals

namespace Folio

/-! ## 1. Activations -/

/-- **What becomes of a coordinator**: it becomes active only with a new loop. -/
structure Coordinator.Leads (c d : Coordinator) : Prop where
  count : c.loopCount ≤ d.loopCount
  inactive : c.active = false → d.loopCount = c.loopCount → d.active = false

namespace Coordinator

variable {c d e : Coordinator}

namespace Leads

theorem refl (c : Coordinator) : c.Leads c := ⟨Nat.le_refl _, fun inactive _ => inactive⟩

theorem trans (h : c.Leads d) (h' : d.Leads e) : c.Leads e where
  count := Nat.le_trans h.count h'.count
  inactive inactive same := by
    -- if both ends have the same count, so has what is between them
    have first := h.count
    have second := h'.count
    exact h'.inactive (h.inactive inactive (by omega)) (by omega)

/-- A coordinator that keeps its loops. -/
theorem of_gear (same : d.gear = c.gear) : c.Leads d := by
  have active : d.active = c.active := congrArg (·.1) same
  have count : d.loopCount = c.loopCount := congrArg (·.2.2) same
  exact ⟨Nat.le_of_eq count.symm, fun inactive _ => active.trans inactive⟩

/-- A coordinator that is no longer active. -/
theorem of_inactive (count : d.loopCount = c.loopCount) (inactive : d.active = false) : c.Leads d :=
  ⟨Nat.le_of_eq count.symm, fun _ _ => inactive⟩

end Leads

theorem gear_setInterval (c : Coordinator) (interval : Duration) :
    (c.setInterval interval).gear = c.gear := by
  unfold setInterval
  simp only
  split <;> rfl

theorem gear_recalibrate (c : Coordinator) (took : Duration) :
    (c.recalibrate took).gear = c.gear := by
  unfold recalibrate
  split <;> rfl

/-- A start is counted. -/
theorem of_start {closed : Bool} {number : Nat} (started : c.start closed = (d, some number)) :
    number = c.loopCount ∧
      d = { c with active := true, loop := some c.loopCount, loopCount := c.loopCount + 1 } := by
  unfold Coordinator.start at started
  split at started <;> cases started
  exact ⟨rfl, rfl⟩

theorem Change.leads (h : c.Change d) : c.Leads d := by
  cases h with
  | made context interval unmade =>
    subst unmade
    exact .of_gear rfl
  | start started =>
    obtain ⟨-, rfl⟩ := of_start started
    exact ⟨Nat.le_succ c.loopCount, fun _ same => absurd same (Nat.succ_ne_self c.loopCount)⟩
  | stop => exact .of_inactive rfl rfl
  | setInterval interval => exact .of_gear (gear_setInterval c interval)
  | recalibrate took => exact .of_gear (gear_recalibrate c took)
  | _ => exact .of_gear rfl

theorem Changes.leads (h : c.Changes d) : c.Leads d := h.related Leads.refl Leads.trans Change.leads

end Coordinator

namespace Session

/-- What becomes of one coordinator of a session. -/
def Leads (k : CoordinatorId) (s t : Session) : Prop := (s.coordinator k).Leads (t.coordinator k)

/-- **However a process goes on**, a coordinator becomes active only with a new loop. -/
theorem leads_resume (s : Session) (p : Process) (answer : p.need.Answer) (k : CoordinatorId) :
    Leads k s (p.resume s answer).1 := by
  rcases p.changes s answer k with changes | ⟨_, _, _, _, -, -, takes | ends⟩
  · exact changes.leads
  · rw [Leads, takes]
    exact .of_gear rfl
  · rw [Leads, ends]
    exact .of_inactive rfl rfl

end Session

/-! ## 2. Saves of a coordinator that is not active -/

/-- **A save completes and leaves the coordinator alone**, if that is not active. -/
theorem Process.resume_saving_of_inactive {s : Session} {k : CoordinatorId}
    (inactive : (s.coordinator k).active = false) (since : Nat) (path : String)
    (request : SaveRequest) (reply : Except StoreError Metadata) :
    (Process.attempt k (.saving since path request)).resume s reply =
      (s.setContext (s.coordinator k).context
        ((s.context (s.coordinator k).context).afterSave reply).1, .inr .silent) := by
  have scene : Attempt.afterSave (s.scene k) since reply =
      { s.scene k with context := ((s.context (s.coordinator k).context).afterSave reply).1 } := by
    cases reply with
    | error e => rfl
    | ok metadata =>
      have same (took : Duration) : (s.coordinator k).recalibrate took = s.coordinator k := by
        simp [Coordinator.recalibrate, inactive]
      simp only [Attempt.afterSave, Context.afterSave, Session.scene, same]
  have kept (t : Session) (same : t.coordinators = s.coordinators) :
      t.setCoordinator k (s.coordinator k) = t := by
    have kept : t.coordinators.set k (s.coordinator k) = t.coordinators := by
      rw [same]
      by_cases made : k < s.coordinators.length
      · simp [Session.coordinator, made]
      · exact List.set_eq_of_length_le (Nat.le_of_not_lt made)
    rw [Session.setCoordinator, kept]
  show (s.setScene k (Attempt.afterSave (s.scene k) since reply), _) = _
  rw [scene]
  exact congrArg (·, Sum.inr Outcome.silent) (kept _ rfl)

/-! ## 3. Runs -/

namespace Traffic

variable {x y : Traffic} {k : CoordinatorId}

/-- **What becomes of a coordinator in a run**, and what its processes have found since. -/
structure LeadsTo (k : CoordinatorId) (y x : Traffic) : Prop where
  session : Session.Leads k y.session x.session
  log : ∃ later, x.log = y.log ++ later ∧ ∀ n p answer s, .stepped n p answer s ∈ later →
    Session.Leads k y.session s ∧ Session.Leads k s x.session

theorem leadsTo_run (y : Traffic) (moves : List Move) : LeadsTo k y (y.run moves) := by
  induction moves using List.reverseRecOn with
  | nil => exact ⟨.refl _, [], (List.append_nil _).symm, fun _ _ _ _ => nofun⟩
  | append_singleton moves m ih =>
    rw [run_concat]
    obtain ⟨session, later, log, found⟩ := ih
    obtain ⟨e, does⟩ := (y.run moves).step_does m
    have grown := does.log
    generalize y.run moves = x at session log found does grown
    generalize x.step m = z at does grown ⊢
    have leads : Session.Leads k x.session z.session := by
      cases does with
      | deed d => exact (Session.ChangesCoordinator.deed k x.session d).leads
      | @goes i oracle before after t answer => exact x.session.leads_resume t.process answer k
      | _ => exact .refl _
    refine ⟨session.trans leads, later ++ e.toList, by rw [grown, log, List.append_assoc],
      fun n p answer s there => ?_⟩
    rcases List.mem_append.mp there with earlier | last
    · obtain ⟨before, after⟩ := found n p answer s earlier
      exact ⟨before, after.trans leads⟩
    · -- the step is the one of this move, and finds the session as it was before
      cases does with
      | goes => cases List.mem_singleton.mp last; exact ⟨session, leads⟩
      | carries => cases List.mem_singleton.mp last
      | answers => cases List.mem_singleton.mp last
      | others => cases List.mem_singleton.mp last
      | _ => cases last

/-- **A save that completes after its coordinator was stopped leaves the interval alone**, as long
as the coordinator has not been started again.  Whatever run has led to the state in which the
coordinator is not active, and whatever happens from then on: if no loop is started for it, it stays
inactive, and every save that completes hands its reply to the context and changes nothing of any
coordinator, whenever it began. -/
theorem discards_recalibration (y : Traffic) (moves : List Move) (k : CoordinatorId)
    (stopped : (y.session.coordinator k).active = false)
    (unstarted : ((y.run moves).session.coordinator k).loopCount =
      (y.session.coordinator k).loopCount) :
    ((y.run moves).session.coordinator k).active = false ∧
      ∀ later, (y.run moves).log = y.log ++ later →
        ∀ n since path request reply s,
          .stepped n (.attempt k (.saving since path request)) reply s ∈ later →
          (s.coordinator k).active = false ∧
          (Process.attempt k (.saving since path request)).resume s reply =
            (s.setContext (s.coordinator k).context
              ((s.context (s.coordinator k).context).afterSave reply).1, .inr .silent) := by
  obtain ⟨session, since', log, found⟩ := leadsTo_run (k := k) y moves
  refine ⟨session.inactive stopped unstarted, ?_⟩
  intro later log' n since path request reply s there
  obtain rfl := List.append_cancel_left (log.symm.trans log')
  obtain ⟨before, after⟩ := found n _ _ s there
  -- no loop was started before the save completed, since none was started at all
  have first := before.count
  have second := after.count
  have inactive := before.inactive stopped (by omega)
  exact ⟨inactive, Process.resume_saving_of_inactive inactive since path request reply⟩

/-! ## 4. Runs of one document -/

/-- An attempt has begun to save, and the coordinator is stopped. -/
def stopsInFlight : List Move :=
  loadsFirst ++ edits "mine" :: startsLoop 0 ++ attempts 1 ++ returns 1 ++
    [.deed (.stopCoordinator 0)]

/-- The save returns after five seconds. -/
def returnsLate : List Move := .deed (.setClock 5000) :: returns 1

theorem discards_recalibration_stopsInFlight :
    let y := (start (.create {}) Commons.firstStore).run stopsInFlight
    let x := y.run returnsLate
    (y.session.coordinator 0).active = false ∧
      (x.session.coordinator 0).loopCount = (y.session.coordinator 0).loopCount ∧
      y.errands.map (·.process.savesFor 0) = [false, true] ∧ x.errands.length = 1 ∧
      (x.session.context 0).model.dirty = false ∧
      (x.session.coordinator 0).current = .ofMillis 1000 ∧
      ∀ later, x.log = y.log ++ later → ∀ n since path request reply s,
        .stepped n (.attempt 0 (.saving since path request)) reply s ∈ later →
        (s.coordinator 0).active = false ∧
        (Process.attempt 0 (.saving since path request)).resume s reply =
          (s.setContext (s.coordinator 0).context
            ((s.context (s.coordinator 0).context).afterSave reply).1, .inr .silent) := by
  intro y x
  have stopped : (y.session.coordinator 0).active = false := by decide +kernel
  have unstarted : (x.session.coordinator 0).loopCount = (y.session.coordinator 0).loopCount := by
    decide +kernel
  exact ⟨stopped, unstarted, by decide +kernel, by decide +kernel, by decide +kernel,
    by decide +kernel, (discards_recalibration y returnsLate 0 stopped unstarted).2⟩

/-- **A save of an earlier activation sets the interval of the next one.**  The coordinator is
stopped while it saves, and started again before the save completes; five seconds later the interval
is ten times as long, though the loop that began the save was stopped. -/
theorem recalibrates_after_restart :
    let y := (start (.create {}) Commons.firstStore).run stopsInFlight
    let z := y.step (.deed (.startCoordinator 0))
    let x := z.run returnsLate
    y.errands.map (·.process.savesFor 0) = [false, true] ∧
      (y.session.coordinator 0).active = false ∧
      (y.session.coordinator 0).current = .ofMillis 1000 ∧
      (z.session.coordinator 0).active = true ∧
      (z.session.coordinator 0).current = .ofMillis 1000 ∧
      (x.session.context 0).model.dirty = false ∧
      (x.session.coordinator 0).current = .ofMillis 50000 := by
  decide +kernel

end Traffic

end Folio
