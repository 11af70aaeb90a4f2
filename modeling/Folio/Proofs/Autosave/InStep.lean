/-
# Loops in step with their coordinators

A timer loop that may run listens to the context of its coordinator, from a place among the events
that were announced, and the interval for which it waits is the current one, unless the coordinator
wishes the timer to be set anew (`Process.IsInStep`).

That holds because a coordinator whose loop goes on keeps its interval or wishes a new timer, as
long as nothing but its loop takes that wish (`Coordinator.Heeds`), and because a loop is started
with the place behind all that was announced (`Session.StartsLoops`).  `Traffic.loop_cases` says
where a loop that may run comes from.
-/
import Folio.Proofs.Autosave.Recalibration
import Folio.Proofs.Session.Announcements

namespace Folio

/-! ## 1. A coordinator whose loop goes on -/

/-- **What becomes of a coordinator other than by its loop.**  A loop that is not new may run only
if it might before, and if none was started since; and a coordinator that stays active keeps its
interval, or wishes the timer to be set anew. -/
structure Coordinator.Heeds (c d : Coordinator) : Prop extends c.Leads d where
  runs : ∀ n < c.loopCount, d.runs n = true → c.runs n = true ∧ d.loopCount = c.loopCount
  pace : d.active = true → d.loopCount = c.loopCount →
    (d.current = c.current ∧ d.rescheduled = c.rescheduled) ∨ d.rescheduled = true

namespace Coordinator

variable {c d e : Coordinator}

namespace Heeds

theorem refl (c : Coordinator) : c.Heeds c where
  toLeads := .refl c
  runs _ _ runs := ⟨runs, rfl⟩
  pace _ _ := .inl ⟨rfl, rfl⟩

theorem trans (h : c.Heeds d) (h' : d.Heeds e) : c.Heeds e where
  toLeads := h.toLeads.trans h'.toLeads
  runs n below runs := by
    obtain ⟨between, same'⟩ := h'.runs n (Nat.lt_of_lt_of_le below h.count) runs
    obtain ⟨before, same⟩ := h.runs n below between
    exact ⟨before, same'.trans same⟩
  pace active same := by
    have first := h.count
    have second := h'.count
    have between : d.active = true := by
      rw [← Bool.not_eq_false]
      intro inactive
      rw [h'.inactive inactive (by omega)] at active
      cases active
    rcases h'.pace active (by omega) with ⟨current, wish⟩ | wish
    · rcases h.pace between (by omega) with ⟨current', wish'⟩ | wish'
      · exact .inl ⟨current.trans current', wish.trans wish'⟩
      · exact .inr (wish.trans wish')
    · exact .inr wish

/-- A coordinator that keeps its loops, and its interval if it does not wish a new timer. -/
theorem of_gear (gear : d.gear = c.gear)
    (pace : d.active = true →
      (d.current = c.current ∧ d.rescheduled = c.rescheduled) ∨ d.rescheduled = true) :
    c.Heeds d where
  toLeads := .of_gear gear
  runs n _ runs := by
    have loop : d.loop = c.loop := congrArg (·.2.1) gear
    exact ⟨by rwa [Coordinator.runs, ← loop], congrArg (·.2.2) gear⟩
  pace active _ := pace active

end Heeds

theorem Change.heeds (h : c.Change d) : c.Heeds d := by
  cases h with
  | made context interval unmade =>
    subst unmade
    exact .of_gear rfl fun active => by cases active
  | start started =>
    obtain ⟨-, rfl⟩ := of_start started
    refine ⟨(Change.start started).leads, fun n below runs => ?_,
      fun _ same => absurd same (Nat.succ_ne_self c.loopCount)⟩
    obtain rfl : c.loopCount = n := by simpa [Coordinator.runs] using runs
    exact absurd below (Nat.lt_irrefl _)
  | stop =>
    refine ⟨Change.stop.leads, fun n below runs => ?_, fun active => ?_⟩
    · cases runs
    · cases active
  | setInterval interval =>
    refine .of_gear (gear_setInterval c interval) fun active => .inr ?_
    unfold Coordinator.setInterval at active ⊢
    simp only at active ⊢
    split at active
    · next was => rw [if_pos was]; rfl
    · next inactive => exact absurd active inactive
  | recalibrate took =>
    refine .of_gear (gear_recalibrate c took) fun active => .inr ?_
    unfold Coordinator.recalibrate at active ⊢
    split at active
    · next was => rw [if_pos was]; rfl
    · next inactive => exact absurd active inactive
  | openConflict => exact .of_gear rfl fun _ => .inl ⟨rfl, rfl⟩
  | closeConflict => exact .of_gear rfl fun _ => .inl ⟨rfl, rfl⟩

theorem Changes.heeds (h : c.Changes d) : c.Heeds d := h.related Heeds.refl Heeds.trans Change.heeds

end Coordinator

/-! ## 2. Loops that are started -/

namespace Session

variable {s t u : Session}

/-- What was announced to the loops of a coordinator. -/
def announcedTo (s : Session) (k : CoordinatorId) : Nat :=
  (s.context (s.coordinator k).context).events.count

/-- **Loops are started or stopped, and nothing else happens.**  A loop that is started has a new
number, and its place is behind all that was announced. -/
structure StartsLoops (s t : Session) : Prop where
  contexts : t.contexts = s.contexts
  owner : ∀ k, (t.coordinator k).context = (s.coordinator k).context
  count : ∀ k, (s.coordinator k).loopCount ≤ (t.coordinator k).loopCount
  started : ∀ k number place, .loop k number place ∈ t.started →
    .loop k number place ∈ s.started ∨
      ((s.coordinator k).loopCount ≤ number ∧ place = s.announcedTo k)

namespace StartsLoops

theorem announcedTo (h : s.StartsLoops t) (k : CoordinatorId) :
    t.announcedTo k = s.announcedTo k := by
  rw [Session.announcedTo, h.owner, Session.context, h.contexts]
  rfl

theorem refl (s : Session) : s.StartsLoops s :=
  ⟨rfl, fun _ => rfl, fun _ => Nat.le_refl _, fun _ _ _ there => .inl there⟩

theorem trans (h : s.StartsLoops t) (h' : t.StartsLoops u) : s.StartsLoops u where
  contexts := h'.contexts.trans h.contexts
  owner k := (h'.owner k).trans (h.owner k)
  count k := Nat.le_trans (h.count k) (h'.count k)
  started k number place there := by
    rcases h'.started k number place there with before | ⟨new, behind⟩
    · exact h.started k number place before
    · exact .inr ⟨Nat.le_trans (h.count k) new, behind.trans (h.announcedTo k)⟩

theorem startCoordinator (s : Session) (j : CoordinatorId) :
    s.StartsLoops (s.startCoordinator j) where
  contexts := contexts_startCoordinator s j
  owner k := by
    unfold Session.startCoordinator
    simp only
    split
    · rfl
    · next started =>
      obtain ⟨-, rfl⟩ := Coordinator.of_start started
      exact looks_setCoordinator (k := j) Coordinator.context (by rfl) k
  count k := (ChangesCoordinator.startCoordinator k s j).leads.count
  started k number place there := by
    unfold Session.startCoordinator at there
    simp only at there
    split at there
    · exact .inl there
    · next started =>
      obtain ⟨rfl, rfl⟩ := Coordinator.of_start started
      rcases List.mem_append.mp there with before | new
      · exact .inl before
      · cases List.mem_singleton.mp new
        exact .inr ⟨Nat.le_refl _, rfl⟩

theorem stopCoordinator (s : Session) (j : CoordinatorId) :
    s.StartsLoops (s.stopCoordinator j) where
  contexts := rfl
  owner k := looks_setCoordinator (k := j) Coordinator.context (by rfl) k
  count k := Nat.le_of_eq (looks_setCoordinator (k := j) Coordinator.loopCount (by rfl) k).symm
  started _ _ _ there := .inl there

theorem switches (enabled : Bool) (tracked : List Tracked) (s : Session) :
    s.StartsLoops (tracked.foldl (Manager.switchAutosave enabled) s) := by
  refine foldl_related (R := StartsLoops) refl trans (fun s t => ?_) tracked s
  unfold Manager.switchAutosave
  split
  · exact stopCoordinator s t.coordinator
  · split
    · exact startCoordinator s t.coordinator
    · exact refl s

end StartsLoops

/-- **Every loop that was started** has a number that is new, and its place is behind all that was
announced. -/
def LoopsJoin (s t : Session) : Prop :=
  ∀ k number place, .loop k number place ∈ t.started →
    (s.coordinator k).loopCount ≤ number ∧ place = t.announcedTo k

theorem StartsLoops.join (h : s.StartsLoops t) (none : s.started = []) : s.LoopsJoin t := by
  intro k number place there
  rcases h.started k number place there with before | ⟨new, behind⟩
  · rw [none] at before
    cases before
  · exact ⟨new, behind.trans (h.announcedTo k).symm⟩

theorem Eases.join (eases : ∀ k, Eases k s t) (none : s.started = []) : s.LoopsJoin t := by
  intro k number place there
  have listed : number ∈ t.startedLoops k :=
    List.mem_filterMap.mpr ⟨_, there, if_pos rfl⟩
  rw [(eases k).started, startedLoops, none] at listed
  cases listed

/-- **The host starts loops** as they are to be started. -/
theorem join_deed (none : s.started = []) (d : Deed) : s.LoopsJoin (d.apply s) := by
  cases d with
  | startCoordinator j => exact (StartsLoops.startCoordinator s j).join none
  | _ => exact Eases.join (fun k => .deed s (by simp)) none

/-- **A step of a process starts loops** as they are to be started. -/
theorem join_resume (none : s.started = []) (p : Process) (answer : p.need.Answer) :
    s.LoopsJoin (p.resume s answer).1 := by
  by_cases conducts : ∃ stage, p = .manager stage
  · obtain ⟨stage, rfl⟩ := conducts
    have join : s.LoopsJoin (stage.resume s answer).1 := by
      by_cases switches : ∃ enabled, stage = .reading (.setAutosave enabled)
      · obtain ⟨enabled, rfl⟩ := switches
        exact (StartsLoops.switches enabled s.manager.tracked s).join none
      · exact Eases.join (fun k => .stage (stage.makes s answer)
          fun enabled same => switches ⟨enabled, same⟩) none
    simp only [Process.resume]
    split <;> (next h => rw [h] at join; exact join)
  · have makes := p.makes s answer (not_exists.mp conducts)
    generalize (p.resume s answer).1 = t at makes ⊢
    have idle (same : t.started = s.started) : s.LoopsJoin t := by
      intro k number place there
      rw [same, none] at there
      cases there
    cases makes with
    | starts j call reply =>
      have loaded (c : ContextId) (context : Context) :
          s.LoopsJoin ((s.setContext c context).startCoordinator j) :=
        (StartsLoops.startCoordinator (s.setContext c context) j).join none
      exact loaded _ _
    | @fires j number place c interval runs =>
      intro k number place there
      have only : (s.start (.attempt j)).started = [.attempt j] := by
        rw [Session.start, none]
        rfl
      rw [only] at there
      cases List.mem_singleton.mp there
    | _ => exact idle rfl

/-- **A context announces, and takes nothing back**, whatever is done. -/
theorem Proceeds.count_le (h : s.Proceeds t) (c : ContextId) :
    (s.context c).events.count ≤ (t.context c).events.count := by
  by_cases made : c < s.contexts.length
  · have more := (h.context c made).announces.length_le
    rwa [Context.length_announced, Context.length_announced] at more
  · -- nothing was announced of what was not made
    have unmade : (s.context c).events.count = 0 := by
      rw [Session.context, List.getElem?_eq_none (Nat.le_of_not_lt made)]
      rfl
    rw [unmade]
    exact Nat.zero_le _

end Session

/-! ## 3. Where a loop comes from -/

namespace Traffic

variable {x : Traffic} {k : CoordinatorId}

/-- **Besides a loop that may run, no other may.** -/
theorem Timed.alone (timed : x.Timed k) {t u : Errand} {others : List Errand}
    (all : x.errands.Perm (t :: others)) {n m : Nat} (loop : t.process.loopOf? k = some n)
    (runs : (x.session.coordinator k).runs n = true) (hu : u ∈ others)
    (other : u.process.loopOf? k = some m) : (x.session.coordinator k).runs m = false := by
  have counted : (x.loops k).countP (x.session.coordinator k).runs ≤ 1 :=
    timed.counted ▸ Bool.toNat_le _
  have same : (x.loops k).Perm (n :: others.filterMap fun t => t.process.loopOf? k) := by
    have same := all.filterMap fun t => t.process.loopOf? k
    rw [List.filterMap_cons, loop] at same
    exact same
  rw [same.countP_eq, List.countP_cons_of_pos runs] at counted
  have rest : (others.filterMap fun t => t.process.loopOf? k).countP
      (x.session.coordinator k).runs = 0 := by omega
  have stopped := List.countP_eq_zero.mp rest m (List.mem_filterMap.mpr ⟨u, hu, other⟩)
  simpa using stopped

/-- A loop that is under way has a number that was given. -/
theorem Timed.lt (timed : x.Timed k) {t : Errand} (ht : t ∈ x.errands) {n : Nat}
    (loop : t.process.loopOf? k = some n) : n < (x.session.coordinator k).loopCount :=
  timed.below n (List.mem_filterMap.mpr ⟨t, ht, loop⟩)

/-- The coordinator of a loop that may run is active. -/
theorem Timed.isActive (timed : x.Timed k) {t : Errand} (ht : t ∈ x.errands) {n : Nat}
    (loop : t.process.loopOf? k = some n) (runs : (x.session.coordinator k).runs n = true) :
    (x.session.coordinator k).active = true :=
  Coordinator.Timed.active timed (List.mem_filterMap.mpr ⟨t, ht, loop⟩) runs

/-- An active coordinator has a loop that may run. -/
theorem Timed.of_active (timed : x.Timed k) (active : (x.session.coordinator k).active = true) :
    ∃ t ∈ x.errands, ∃ n, t.process.loopOf? k = some n ∧
      (x.session.coordinator k).runs n = true := by
  have one : (x.loops k).countP (x.session.coordinator k).runs = 1 := by
    rw [timed.counted, active]
    rfl
  obtain ⟨n, listed, runs⟩ := List.countP_pos_iff.mp (Nat.lt_of_lt_of_eq Nat.one_pos one.symm)
  obtain ⟨t, ht, loop⟩ := List.mem_filterMap.mp listed
  exact ⟨t, ht, n, loop, runs⟩

/-- A loop that enters with the background work of a session. -/
theorem joins_of_entering {s : Session} (join : x.session.LoopsJoin s) {next : Nat} {u : Errand}
    (hu : u ∈ entering next s.started) {n : Nat} (loop : u.process.loopOf? k = some n) :
    u.process = .loop k n (s.announcedTo k) ∧ (x.session.coordinator k).loopCount ≤ n := by
  obtain ⟨j, hj, rfl⟩ := List.mem_mapIdx.mp hu
  have there := List.getElem_mem hj
  simp only at loop ⊢
  generalize s.started[j] = work at there loop
  cases work with
  | loop i number place =>
    obtain ⟨rfl, rfl⟩ : i = k ∧ number = n := by
      simpa [Process.ofBackground, Process.loopOf?] using loop
    obtain ⟨new, rfl⟩ := join i number place there
    exact ⟨rfl, new⟩
  | _ => cases loop

/-- **Where a loop that may run after a step comes from**: it is one of the others, and the
coordinator was changed only otherwise than by it; or it has entered under a new number, and will
hear all that is announced from now on; or it took the step. -/
theorem loop_resumed (timed : x.Timed k) (none : x.session.started = []) {t : Errand}
    {others : List Errand} {answer : t.process.need.Answer} (all : x.errands.Perm (t :: others))
    {u : Errand} (hu : u ∈ (x.resumed others t answer).errands) {n : Nat}
    (loop : u.process.loopOf? k = some n)
    (runs : ((x.resumed others t answer).session.coordinator k).runs n = true) :
    (u ∈ others ∧
      (x.session.coordinator k).Heeds ((x.resumed others t answer).session.coordinator k)) ∨
    (u.process = .loop k n ((x.resumed others t answer).session.announcedTo k) ∧
      (x.session.coordinator k).loopCount ≤ n) ∨
    (u.number = t.number ∧ (t.process.resume x.session answer).2 = .inl u.process) := by
  rcases List.mem_append.mp hu with hu | hu
  · rcases List.mem_append.mp hu with other | led
    · rcases t.process.changes x.session answer k with
        changes | ⟨number, _, _, _, at_tick, may, wakes⟩
      · exact .inl ⟨other, changes.heeds⟩
      · -- its own loop has taken a step, so this one may not run
        have mine : t.process.loopOf? k = some number := by rw [at_tick]; exact if_pos rfl
        have stopped := timed.alone all mine may other loop
        have runs' : ((t.process.resume x.session answer).1.coordinator k).runs n = true := runs
        have still : (x.session.coordinator k).runs n = true := by
          rcases wakes with same | same <;> (rw [same] at runs'; exact runs')
        rw [stopped] at still
        cases still
    · obtain ⟨number, process, -⟩ := Errand.of_mem_next? (Option.mem_toList.mp led)
      exact .inr (.inr ⟨number, process⟩)
  · exact .inr (.inl (joins_of_entering (Session.join_resume none t.process answer) hu loop))

/-- **Where a loop that may run comes from**: it was there, and the coordinator was changed only
otherwise than by it; or it has entered; or it took a step. -/
theorem loop_cases (timed : x.Timed k) (none : x.session.started = []) (m : Move) {u : Errand}
    (hu : u ∈ (x.step m).errands) {n : Nat} (loop : u.process.loopOf? k = some n)
    (runs : ((x.step m).session.coordinator k).runs n = true) :
    (∃ t ∈ x.errands, t.number = u.number ∧ t.process = u.process ∧
      (x.session.coordinator k).Heeds ((x.step m).session.coordinator k)) ∨
    (u.process = .loop k n ((x.step m).session.announcedTo k) ∧
      (x.session.coordinator k).loopCount ≤ n) ∨
    ∃ t others answer, x.errands.Perm (t :: others) ∧ x.step m = x.resumed others t answer ∧
      u.number = t.number ∧ (t.process.resume x.session answer).2 = .inl u.process := by
  obtain ⟨e, does⟩ := x.step_does m
  generalize x.step m = y at does hu runs ⊢
  have same := Coordinator.Heeds.refl (x.session.coordinator k)
  cases does with
  | nothing => exact .inl ⟨u, hu, rfl, rfl, same⟩
  | deed d =>
    rcases List.mem_append.mp hu with there | new
    · exact .inl ⟨u, there, rfl, rfl, (Session.ChangesCoordinator.deed k x.session d).heeds⟩
    · exact .inr (.inl (joins_of_entering (Session.join_deed none d) new loop))
  | enter call =>
    rcases List.mem_append.mp hu with there | new
    · exact .inl ⟨u, there, rfl, rfl, same⟩
    · rw [List.mem_singleton.mp new, Process.loopOf?_of_isCall call] at loop
      cases loop
  | others store => exact .inl ⟨u, hu, rfl, rfl, same⟩
  | carries i split =>
    obtain ⟨t, there, number, process⟩ := mem_replied hu
    exact .inl ⟨t, split ▸ there, number, process, same⟩
  | answers i oracle split =>
    obtain ⟨t, there, number, process⟩ := mem_replied hu
    exact .inl ⟨t, split ▸ there, number, process, same⟩
  | @goes i oracle before after t answer split =>
    have all := perm_of_split split
    rcases loop_resumed timed none all hu loop runs with ⟨other, heeds⟩ | joins | ⟨number, led⟩
    · exact .inl ⟨u, all.mem_iff.mpr (List.mem_cons_of_mem t other), rfl, rfl, heeds⟩
    · exact .inr (.inl joins)
    · exact .inr (.inr ⟨t, before ++ after, answer, all, rfl, number, led⟩)

end Traffic

/-! ## 4. In step -/

/-- **A loop is in step with its coordinator**, if it may run. -/
def Process.IsInStep (s : Session) : Process → Prop
  | .loop k number place => (s.coordinator k).runs number = true → place ≤ s.announcedTo k
  | .ticking k number place c interval => (s.coordinator k).runs number = true →
      c = (s.coordinator k).context ∧ place ≤ s.announcedTo k ∧
        (interval = (s.coordinator k).current ∨ (s.coordinator k).rescheduled = true)
  | _ => True

namespace Journal

/-- A receiver is never ahead of the journal. -/
theorem place_receive_le {α : Type} (j : Journal α) {place : Nat} (within : place ≤ j.count) :
    (j.receive place).2 ≤ j.count := by
  unfold receive
  split
  · exact Nat.sub_le _ _
  · split
    · next there =>
      obtain ⟨inside, -⟩ := Array.getElem?_eq_some_iff.mp there
      exact inside
    · exact within

end Journal

namespace Process

variable {s : Session} {k : CoordinatorId} {number place : Nat} {c : ContextId}
  {interval : Duration}

/-- **How a loop goes on**: it waits for the current interval. -/
theorem sleeps {q : Process} (h : ((Process.loop k number place).resume s ()).2 = .inl q) :
    q = .ticking k number place (s.coordinator k).context (s.coordinator k).current ∧
      ((Process.loop k number place).resume s ()).1 = s := by
  simp only [resume] at h ⊢
  split at h
  · next runs =>
    cases h
    exact ⟨rfl, by rw [if_pos runs]⟩
  · cases h

/-- **How a loop goes on that wakes up**: it may run, and sets its timer anew; its place is still
among what was announced. -/
theorem wakes {q : Process} {tick : Tick}
    (h : ((Process.ticking k number place c interval).resume s tick).2 = .inl q) :
    (s.coordinator k).runs number = true ∧ ∃ next, q = .loop k number next ∧
      (place ≤ (s.context c).events.count → next ≤ (s.context c).events.count) := by
  simp only [resume, resumeLoop] at h
  split at h
  · cases h
  · next running =>
    refine ⟨by simpa using running, ?_⟩
    cases tick with
    | due => cases h; exact ⟨place, rfl, id⟩
    | rescheduled => cases h; exact ⟨place, rfl, id⟩
    | announced =>
      simp only at h
      split at h
      · cases h
      · next next _ received =>
        cases h
        refine ⟨next, rfl, fun within => ?_⟩
        have place := (s.context c).events.place_receive_le within
        rwa [received] at place

end Process

namespace Traffic

variable {x : Traffic}

/-- **All loops are in step.** -/
def InStep (x : Traffic) : Prop := ∀ t ∈ x.errands, t.process.IsInStep x.session

/-- A coordinator with a loop that may run keeps its context. -/
theorem owner_step (x : Traffic) (m : Move) {k : CoordinatorId} {n : Nat}
    (runs : (x.session.coordinator k).runs n = true) :
    ((x.step m).session.coordinator k).context = (x.session.coordinator k).context :=
  (advances_step x m).coordinator k (Session.made_of_runs runs)

/-- What is announced to a coordinator with a loop that may run becomes more. -/
theorem announcedTo_le (x : Traffic) (m : Move) {k : CoordinatorId} {n : Nat}
    (runs : (x.session.coordinator k).runs n = true) :
    x.session.announcedTo k ≤ (x.step m).session.announcedTo k := by
  rw [Session.announcedTo, Session.announcedTo, x.owner_step m runs]
  exact (x.proceeds_step m).count_le _

/-- **A loop that stays under way and may still run** might run before, and its coordinator keeps
its interval or wishes a new timer. -/
theorem Timed.stays {m : Move} {k : CoordinatorId} (timed : x.Timed k) (after : (x.step m).Timed k)
    {t u : Errand} (ht : t ∈ x.errands) (hu : u ∈ (x.step m).errands)
    (same : t.process = u.process)
    (heeds : (x.session.coordinator k).Heeds ((x.step m).session.coordinator k)) {n : Nat}
    (loop : u.process.loopOf? k = some n)
    (runs : ((x.step m).session.coordinator k).runs n = true) :
    (x.session.coordinator k).runs n = true ∧
      ((x.step m).session.coordinator k).loopCount = (x.session.coordinator k).loopCount ∧
      ((((x.step m).session.coordinator k).current = (x.session.coordinator k).current ∧
        ((x.step m).session.coordinator k).rescheduled = (x.session.coordinator k).rescheduled) ∨
        ((x.step m).session.coordinator k).rescheduled = true) := by
  obtain ⟨before, count⟩ := heeds.runs n (timed.lt ht (same ▸ loop)) runs
  exact ⟨before, count, heeds.pace (after.isActive hu loop runs) count⟩

theorem InStep.step (h : x.InStep) {m : Move} (timed : ∀ k, x.Timed k)
    (after : ∀ k, (x.step m).Timed k) (none : x.session.started = []) : (x.step m).InStep := by
  intro u hu
  -- a loop that may run was there, has entered, or took a step
  have loops {k : CoordinatorId} {n : Nat} (loop : u.process.loopOf? k = some n)
      (runs : ((x.step m).session.coordinator k).runs n = true) :=
    loop_cases (timed k) none m hu loop runs
  generalize hp : u.process = p at loops
  cases p with
  | loop k number place =>
    intro runs
    have loop : u.process.loopOf? k = some number := by rw [hp]; exact if_pos rfl
    rcases loops (if_pos rfl) runs with
      ⟨t, ht, -, same, heeds⟩ | ⟨enters, -⟩ | ⟨⟨n, q, r⟩, others, answer, all, step, -, goesOn⟩
    · have stays := (timed k).stays (after k) ht hu (same.trans hp.symm) heeds loop runs
      have before := h t ht
      rw [same] at before
      exact Nat.le_trans (before stays.1) (x.announcedTo_le m stays.1)
    · cases enters
      exact Nat.le_refl _
    · have before := h ⟨n, q, r⟩ (all.mem_iff.mpr List.mem_cons_self)
      cases Process.goesOn goesOn with
      | wakes =>
        obtain ⟨may, next, same, within⟩ := Process.wakes goesOn
        cases same
        obtain ⟨rfl, listens, -⟩ := before may
        exact Nat.le_trans (within listens) (x.announcedTo_le m may)
  | ticking k number place c interval =>
    intro runs
    have loop : u.process.loopOf? k = some number := by rw [hp]; exact if_pos rfl
    rcases loops (if_pos rfl) runs with
      ⟨t, ht, -, same, heeds⟩ | ⟨enters, -⟩ | ⟨⟨n, q, r⟩, others, answer, all, step, -, goesOn⟩
    · obtain ⟨may, -, pace⟩ := (timed k).stays (after k) ht hu (same.trans hp.symm) heeds loop runs
      have before := h t ht
      rw [same] at before
      obtain ⟨owner, listens, waits⟩ := before may
      refine ⟨owner.trans (x.owner_step m may).symm,
        Nat.le_trans listens (x.announcedTo_le m may), ?_⟩
      rcases pace with ⟨current, wish⟩ | wish
      · rw [current, wish]
        exact waits
      · exact .inr wish
    · cases enters
    · have before := h ⟨n, q, r⟩ (all.mem_iff.mpr List.mem_cons_self)
      cases Process.goesOn goesOn with
      | sleeps =>
        obtain ⟨-, same⟩ := Process.sleeps goesOn
        have session : (x.step m).session = { x.session with started := [] } := by
          rw [step]
          exact congrArg (fun s : Session => { s with started := [] }) same
        rw [session] at runs ⊢
        exact ⟨rfl, before runs, .inl rfl⟩
  | _ => trivial

theorem inStep_run (config : Settings) (store : MemoryStore) {moves : List Move}
    (starts : (start (.create config) store).throughout startsMade moves = true) :
    ((start (.create config) store).run moves).InStep := by
  induction moves using List.reverseRecOn with
  | nil => exact fun t ht => absurd ht List.not_mem_nil
  | append_singleton moves m ih =>
    have after := timed_run config store starts
    rw [throughout_concat] at starts
    obtain ⟨before, -⟩ := Bool.and_eq_true_iff.mp starts
    rw [run_concat] at after ⊢
    exact (ih before).step (timed_run config store before) after
      (sound_run config store moves).started

end Traffic

end Folio
