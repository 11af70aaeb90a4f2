/-
# What stops when a coordinator is stopped

A coordinator that was stopped fires no tick and begins no save, and its interval stays as it is.
What goes on are the attempts that were under way when it was stopped, and of these only some: one
that had not begun ends, one that waits for its save completes it, but one that had still to decide
what to do about the file is not held up (`Attempt.isUndecided`).  It looks whether the coordinator
is active before it saves; it does not look before it asks the user, nor before it reloads the
document because the user wants that.

So if no attempt was undecided when the coordinator was stopped, nothing is left but saves that were
in flight (`Traffic.halts`).  Else the user may be asked, and the document reloaded, by a
coordinator that is stopped (`Traffic.reloads_after_stop`).
-/
import Folio.Proofs.Autosave.Overwriting
import Folio.Proofs.Session.Edits
import Folio.Proofs.Traffic.Basic

namespace Folio

/-! ## 1. A coordinator that is stopped -/

namespace Session

variable {s t : Session} {k : CoordinatorId}

/-- **A coordinator is stopped**: it is not active, and no loop of it may run. -/
structure Stopped (s : Session) (k : CoordinatorId) : Prop where
  inactive : (s.coordinator k).active = false
  loop : (s.coordinator k).loop = none

theorem stopped_stopCoordinator (s : Session) (k : CoordinatorId) :
    (s.stopCoordinator k).Stopped k := by
  by_cases made : k < s.coordinators.length
  · rw [stopCoordinator]
    exact ⟨by rw [coordinator_setCoordinator _ made]; rfl,
      by rw [coordinator_setCoordinator _ made]; rfl⟩
  · have none : s.coordinators[k]? = none := List.getElem?_eq_none (Nat.le_of_not_lt made)
    have kept : s.coordinators.set k (s.coordinator k).stop = s.coordinators :=
      List.set_eq_of_length_le (Nat.le_of_not_lt made)
    have there : (s.stopCoordinator k).coordinator k = default := by
      rw [stopCoordinator, setCoordinator, kept, coordinator, none]
      rfl
    exact ⟨by rw [there]; rfl, by rw [there]; rfl⟩

/-- **Unless it is active it is stopped**, and no attempt of it has been started. -/
structure Rests (s : Session) (k : CoordinatorId) : Prop where
  loop : (s.coordinator k).active = false → (s.coordinator k).loop = none
  started : .attempt k ∉ s.started

namespace Rests

theorem of_eq (rests : s.Rests k) (coordinators : t.coordinators = s.coordinators)
    (started : t.started = s.started) : t.Rests k := by
  have same : t.coordinator k = s.coordinator k := by rw [coordinator, coordinators, coordinator]
  exact ⟨same ▸ rests.loop, started ▸ rests.started⟩

/-- Background work is started that is no attempt of the coordinator. -/
theorem start (rests : s.Rests k) {work : Background} (other : work ≠ .attempt k) :
    (s.start work).Rests k := by
  refine ⟨rests.loop, fun there => ?_⟩
  rcases List.mem_append.mp there with there | there
  · exact rests.started there
  · exact other (List.mem_singleton.mp there).symm

/-- A coordinator is replaced. -/
theorem setCoordinator (rests : s.Rests k) {j : CoordinatorId} {coordinator : Coordinator}
    (loop : j = k → coordinator.active = false → coordinator.loop = none) :
    (s.setCoordinator j coordinator).Rests k := by
  refine ⟨?_, rests.started⟩
  by_cases same : k = j
  · by_cases made : j < s.coordinators.length
    · rw [same, coordinator_setCoordinator coordinator made]
      exact loop same.symm
    · have kept : s.coordinators.set j coordinator = s.coordinators :=
        List.set_eq_of_length_le (Nat.le_of_not_lt made)
      rw [Session.setCoordinator, kept]
      exact rests.loop
  · rw [coordinator_setCoordinator_of_ne coordinator same]
    exact rests.loop

theorem addCoordinator (rests : s.Rests k) (c : ContextId) (interval : Duration) :
    (s.addCoordinator (.create c interval)).1.Rests k := by
  refine ⟨?_, rests.started⟩
  rcases Nat.lt_trichotomy k s.coordinators.length with before | here | after
  · rw [coordinator_addCoordinator_of_lt _ before]
    exact rests.loop
  · rw [here, coordinator_addCoordinator]
    exact fun _ => rfl
  · have none : ((s.addCoordinator (.create c interval)).1.coordinator k) = default := by
      have beyond : (s.coordinators ++ [Coordinator.create c interval])[k]? = none :=
        List.getElem?_eq_none (by rw [List.length_append, List.length_singleton]; omega)
      simp [Session.addCoordinator, Session.coordinator, beyond]
    rw [none]
    exact fun _ => rfl

theorem startCoordinator (rests : s.Rests k) (j : CoordinatorId) :
    (s.startCoordinator j).Rests k := by
  unfold Session.startCoordinator
  simp only
  split
  · exact rests
  · next new number h =>
    refine (rests.setCoordinator fun _ inactive => ?_).start (by simp)
    unfold Coordinator.start at h
    split at h
    · cases h
    · cases h
      cases inactive

theorem stopCoordinator (rests : s.Rests k) (j : CoordinatorId) : (s.stopCoordinator j).Rests k :=
  rests.setCoordinator fun _ _ => rfl

theorem setCoordinatorInterval (rests : s.Rests k) (j : CoordinatorId) (interval : Duration) :
    (s.setCoordinatorInterval j interval).Rests k := by
  refine rests.setCoordinator fun same => ?_
  subst same
  have loop := rests.loop
  unfold Coordinator.setInterval
  simp only
  split <;> exact loop

/-- No edit starts an attempt, or leaves a loop to a coordinator that is not active. -/
theorem edit (rests : s.Rests k) (h : s.Edit t) : t.Rests k := by
  cases h with
  | newTracked path factory isNew =>
    have added (c : Context) := (rests.of_eq (t := (s.addContext c).1) rfl rfl).addCoordinator
      s.contexts.length s.manager.settings.interval
    exact (added _).start (by simp)
  | startCoordinator j => exact rests.startCoordinator j
  | stopCoordinator j => exact rests.stopCoordinator j
  | setCoordinatorInterval j interval => exact rests.setCoordinatorInterval j interval
  | retireWidget w => cases w <;> exact rests.of_eq rfl rfl
  | _ => exact rests.of_eq rfl rfl

theorem deed (rests : s.Rests k) (d : Deed) : (d.apply s).Rests k := by
  cases d with
  | newCoordinator c interval => exact rests.addCoordinator c interval
  | startCoordinator j => exact rests.startCoordinator j
  | stopCoordinator j => exact rests.stopCoordinator j
  | setInterval j interval => exact rests.setCoordinatorInterval j interval
  | disposeWidget w => cases w <;> exact rests.of_eq rfl rfl
  | _ => exact rests.of_eq rfl rfl

end Rests

end Session

/-! ## 2. Attempts -/

/-- **The dialog is opened or closed**, or nothing is done. -/
inductive Coordinator.Arbitrates (k : Coordinator) : Coordinator → Prop
  | same : k.Arbitrates k
  | opened : k.Arbitrates k.openConflict
  | closed : k.Arbitrates k.closeConflict

namespace Attempt

/-- **The attempt has still to decide** what to do about the file: it waits for the metadata or for
the user, or reloads the document because the user wants that. -/
def isUndecided : Attempt → Bool
  | .checking _ => true
  | .asking _ => true
  | .reverting _ => true
  | _ => false

/-- Nothing is saved for a coordinator that is not active. -/
theorem beginSave_of_inactive {s : Scene} (inactive : s.coordinator.active = false) :
    beginSave s = (s, none) := by
  simp [beginSave, inactive]

/-- **An attempt of a coordinator that is not active** may open or close the dialog; nothing else
becomes of the coordinator. -/
theorem coordinator_resume {s : Scene} (inactive : s.coordinator.active = false) (a : Attempt)
    (answer : a.need.Answer) :
    s.coordinator.Arbitrates (Attempt.resume s a answer).1.coordinator := by
  cases a with
  | due =>
    simp only [Attempt.resume, Attempt.begin, inactive, Bool.not_false, Bool.true_or, if_true]
    exact .same
  | checking path =>
    simp only [Attempt.resume, afterCheck, beginSave_of_inactive inactive]
    split
    · exact .same
    · split
      · exact .same
      · split
        · exact .same
        · exact .opened
  | asking prompt =>
    have released : { s with coordinator := s.coordinator.closeConflict }.coordinator.active =
        false := inactive
    simp only [Attempt.resume, afterAnswer, beginSave_of_inactive released]
    cases answer with
    | revert =>
      simp only
      split
      · exact .closed
      · exact .same
    | _ => exact .closed
  | reverting path => exact .closed
  | saving since path request =>
    simp only [Attempt.resume, afterSave]
    split
    · exact .same
    · simp only [Coordinator.recalibrate, inactive, Bool.false_eq_true, if_false]
      exact .same

/-- **Such an attempt goes on only undecided**, and only if it was so before. -/
theorem undecided_of_next {s : Scene} (inactive : s.coordinator.active = false) {a next : Attempt}
    {answer : a.need.Answer} (h : (Attempt.resume s a answer).2 = some next) :
    a.isUndecided = true ∧ next.isUndecided = true := by
  cases a with
  | due =>
    simp only [Attempt.resume, Attempt.begin, inactive, Bool.not_false, Bool.true_or, if_true] at h
    cases h
  | checking path =>
    refine ⟨rfl, ?_⟩
    simp only [Attempt.resume, afterCheck, beginSave_of_inactive inactive] at h
    split at h
    · cases h
    · split at h
      · cases h
      · split at h <;> cases h
        rfl
  | asking prompt =>
    refine ⟨rfl, ?_⟩
    have released : { s with coordinator := s.coordinator.closeConflict }.coordinator.active =
        false := inactive
    simp only [Attempt.resume, afterAnswer, beginSave_of_inactive released] at h
    cases answer with
    | revert =>
      simp only at h
      split at h <;> cases h
      rfl
    | _ => cases h
  | reverting path => cases h
  | saving since path request => cases h

end Attempt

/-! ## 3. Processes -/

namespace Session

variable {s : Session} {k : CoordinatorId}

theorem Stopped.rests (stopped : s.Stopped k) (started : .attempt k ∉ s.started) : s.Rests k :=
  ⟨fun _ => stopped.loop, started⟩

theorem Rests.stopped (rests : s.Rests k) (inactive : (s.coordinator k).active = false) :
    s.Stopped k := ⟨inactive, rests.loop inactive⟩

/-- No loop of a coordinator that is stopped may run. -/
theorem Stopped.runs (stopped : s.Stopped k) (number : Nat) :
    (s.coordinator k).runs number = false := by
  rw [Coordinator.runs, stopped.loop]
  rfl

/-- What an attempt does to its coordinator, when that is stopped. -/
theorem Stopped.setScene (stopped : s.Stopped k) (started : .attempt k ∉ s.started)
    (j : CoordinatorId) (a : Attempt) (answer : a.need.Answer) :
    (s.setScene j (Attempt.resume (s.scene j) a answer).1).Rests k := by
  have rests : (s.setContext (s.coordinator j).context
      (Attempt.resume (s.scene j) a answer).1.context).Rests k :=
    (stopped.rests started).of_eq rfl rfl
  refine rests.setCoordinator fun same _ => ?_
  subst same
  have arbitrates := Attempt.coordinator_resume (s := s.scene j) stopped.inactive a answer
  generalize (Attempt.resume (s.scene j) a answer).1.coordinator = new at arbitrates
  cases arbitrates <;> exact stopped.loop

end Session

/-- **No step of any process starts an attempt** of a coordinator that is stopped, or leaves it a
loop without making it active. -/
theorem Process.rests_resume {s : Session} {k : CoordinatorId} (stopped : s.Stopped k)
    (started : .attempt k ∉ s.started) (p : Process) (answer : p.need.Answer) :
    (p.resume s answer).1.Rests k := by
  have rests := stopped.rests started
  -- the loop that wakes up is of another coordinator
  have other {j : CoordinatorId} {number : Nat} (runs : (s.coordinator j).runs number = true) :
      j ≠ k := by
    rintro rfl
    rw [stopped.runs number] at runs
    cases runs
  refine Process.keeps (P := fun t => t.Rests k) (fun edit rests => rests.edit edit) ?_ rests answer
  intro t makes
  cases makes with
  | nothing => exact rests
  | called c call reply => exact rests.of_eq rfl rfl
  | loads j call reply => exact rests.of_eq rfl rfl
  | starts j call reply =>
    have loaded (c : ContextId) (context : Context) : (s.setContext c context).Rests k :=
      rests.of_eq rfl rfl
    exact (loaded _ _).startCoordinator j
  | fires runs => exact rests.start fun same => other runs (Background.attempt.inj same)
  | reschedules runs => exact rests.setCoordinator fun same => absurd same (other runs)
  | ends runs => exact rests.setCoordinator fun same => absurd same (other runs)
  | acts j a given => exact stopped.setScene started j a given

/-- The process is one of the coordinator: a loop, or an attempt. -/
def Process.isOf (k : CoordinatorId) : Process → Bool
  | .loop j _ _ => j == k
  | .ticking j _ _ _ _ => j == k
  | .attempt j _ => j == k
  | _ => false

/-- Putting back a scene with the same context changes no context. -/
theorem Session.contexts_setScene {s : Session} {k : CoordinatorId} {scene : Attempt.Scene}
    (same : scene.context = (s.scene k).context) : (s.setScene k scene).contexts = s.contexts := by
  show s.contexts.set (s.coordinator k).context scene.context = s.contexts
  rw [same]
  apply List.ext_getElem?
  intro i
  by_cases here : (s.coordinator k).context = i
  · subst here
    by_cases made : (s.coordinator k).context < s.contexts.length
    · simp [Session.scene, Session.context, made]
    · rw [List.set_eq_of_length_le (Nat.le_of_not_lt made)]
  · rw [List.getElem?_set_ne here]

/-- The attempt was under way, under this number. -/
def Attempt.WasAt (k : CoordinatorId) (underway : List Errand) (n : Nat) (a : Attempt) : Prop :=
  ∃ u ∈ underway, u.number = n ∧ u.process = .attempt k a

/-- **What an attempt has come to**: it has not gone on since, or it was undecided and still is. -/
def Attempt.Led (k : CoordinatorId) (underway : List Errand) (n : Nat) (a : Attempt) : Prop :=
  ∃ b, Attempt.WasAt k underway n b ∧ (b = a ∨ (b.isUndecided = true ∧ a.isUndecided = true))

/-- **What an attempt of a coordinator that is stopped still does to a document**: nothing, with
which it ends; or it completes its save, and ends; or it was undecided when the coordinator was
stopped.  `underway` is what was under way then. -/
inductive Attempt.Finishes (k : CoordinatorId) (underway : List Errand) (n : Nat) (s : Session) :
    Process.Step → Prop
  | ends {t : Session} (contexts : t.contexts = s.contexts) :
      Attempt.Finishes k underway n s (t, .inr .silent)
  | saves {t : Session} {since : Nat} {path : String} {request : SaveRequest}
      (inFlight : Attempt.WasAt k underway n (.saving since path request))
      (reply : Except StoreError Metadata)
      (contexts : t.contexts = s.contexts.set (s.coordinator k).context
        ((s.scene k).context.afterSave reply).1) :
      Attempt.Finishes k underway n s (t, .inr .silent)
  | undecided {step : Process.Step} {a : Attempt} (wasAt : Attempt.WasAt k underway n a)
      (undecided : a.isUndecided = true) : Attempt.Finishes k underway n s step

/-- **A step of a coordinator that is stopped**: it fires no tick, begins no save, and leaves the
coordinator alone but for its dialog. -/
structure Process.Halts (k : CoordinatorId) (underway : List Errand) (n : Nat) (s : Session)
    (step : Process.Step) : Prop where
  noTick : step.1.started = s.started
  coordinator : (s.coordinator k).Arbitrates (step.1.coordinator k)
  noSave : ∀ since path request, step.2 ≠ .inl (.attempt k (.saving since path request))
  finishes : Attempt.Finishes k underway n s step

namespace Process

variable {s : Session} {k : CoordinatorId} {underway : List Errand} {n : Nat}

/-- What ends at once. -/
theorem halts_finish : Halts k underway n s (finish s) :=
  ⟨rfl, .same, fun _ _ _ => nofun, .ends rfl⟩

/-- **An attempt of a coordinator that is stopped**, which was under way. -/
theorem halts_attempt (stopped : s.Stopped k) {a : Attempt} (answer : a.need.Answer)
    (led : Attempt.Led k underway n a) :
    Halts k underway n s ((Process.attempt k a).resume s answer) := by
  obtain ⟨b, wasAt, led⟩ := led
  have inactive : (s.scene k).coordinator.active = false := stopped.inactive
  have arbitrates := Attempt.coordinator_resume inactive a answer
  have next (b : Attempt) (h : (Attempt.resume (s.scene k) a answer).2 = some b) :=
    Attempt.undecided_of_next inactive h
  have coordinator (scene : Attempt.Scene) (h : (s.coordinator k).Arbitrates scene.coordinator) :
      (s.coordinator k).Arbitrates ((s.setScene k scene).coordinator k) := by
    by_cases made : k < s.coordinators.length
    · rw [Session.setScene, Session.coordinator_setCoordinator]
      · exact h
      · exact made
    · have kept : s.coordinators.set k scene.coordinator = s.coordinators :=
        List.set_eq_of_length_le (Nat.le_of_not_lt made)
      have same : (s.setScene k scene).coordinator k = s.coordinator k := by
        show (s.coordinators.set k scene.coordinator)[k]?.getD default = _
        rw [kept]
        rfl
      rw [same]
      exact .same
  have finishes : Attempt.Finishes k underway n s ((Process.attempt k a).resume s answer) := by
    cases a with
    | due =>
      have same := Attempt.context_resume_due (s.scene k)
      have ended : (Attempt.resume (s.scene k) .due answer).2 = none := by
        cases h : (Attempt.resume (s.scene k) .due answer).2 with
        | none => rfl
        | some b => cases (next b h).1
      simp only [resume]
      split
      · next h => rw [h] at ended; cases ended
      · next h => rw [h] at same; exact .ends (Session.contexts_setScene same)
    | saving since path request =>
      rcases led with rfl | ⟨-, impossible⟩
      · refine .saves wasAt answer ?_
        show (s.setScene k (Attempt.afterSave (s.scene k) since answer)).contexts = _
        rw [← Attempt.context_afterSave]
        rfl
      · cases impossible
    | _ =>
      refine .undecided wasAt ?_
      rcases led with rfl | ⟨undecided, -⟩
      · rfl
      · exact undecided
  simp only [resume] at finishes ⊢
  split at finishes
  · next scene b goesOn =>
    rw [goesOn] at arbitrates
    refine ⟨rfl, coordinator scene arbitrates, fun since path request same => ?_, finishes⟩
    cases same
    cases (next _ (by rw [goesOn])).2
  · next scene ends =>
    rw [ends] at arbitrates
    exact ⟨rfl, coordinator scene arbitrates, fun _ _ _ same => (by cases same), finishes⟩

/-- **A process of a coordinator that is stopped.** -/
theorem halts_resume (stopped : s.Stopped k) {p : Process} (answer : p.need.Answer)
    (ofCoordinator : p.isOf k = true)
    (led : ∀ a, p = .attempt k a → Attempt.Led k underway n a) :
    Halts k underway n s (p.resume s answer) := by
  cases p with
  | loop j number place =>
    obtain rfl : j = k := beq_iff_eq.mp ofCoordinator
    simp only [resume, stopped.runs number, Bool.false_eq_true, if_false]
    exact halts_finish
  | ticking j number place c interval =>
    obtain rfl : j = k := beq_iff_eq.mp ofCoordinator
    simp only [resume, resumeLoop, stopped.runs number, Bool.not_false, if_true]
    exact halts_finish
  | attempt j a =>
    obtain rfl : j = k := beq_iff_eq.mp ofCoordinator
    exact halts_attempt stopped answer (led a rfl)
  | _ => cases ofCoordinator

/-- Where an attempt that goes on comes to. -/
theorem led_of_resume (stopped : s.Stopped k) {p : Process} (answer : p.need.Answer) {a : Attempt}
    (led : ∀ a, p = .attempt k a → Attempt.Led k underway n a)
    (h : (p.resume s answer).2 = .inl (.attempt k a)) : Attempt.Led k underway n a := by
  obtain ⟨b, rfl⟩ := attempt_of_continues h
  obtain ⟨c, wasAt, stands⟩ := led b rfl
  have inactive : (s.scene k).coordinator.active = false := stopped.inactive
  obtain ⟨before, after⟩ := Attempt.undecided_of_next inactive (attempt_continues h).1
  refine ⟨c, wasAt, .inr ⟨?_, after⟩⟩
  rcases stands with rfl | ⟨undecided, -⟩
  · exact before
  · exact undecided

end Process

/-! ## 4. Runs -/

namespace Traffic

variable {x y : Traffic} {k : CoordinatorId}

/-- **All that is entered in the log** since `y` about the processes of the coordinator are steps of
a coordinator that is stopped. -/
def HaltsSince (k : CoordinatorId) (y : Traffic) (log : List Event) : Prop :=
  ∃ later, log = y.log ++ later ∧ ∀ n p answer s, .stepped n p answer s ∈ later →
    p.isOf k = true → Process.Halts k y.errands n s (p.resume s answer)

theorem HaltsSince.concat {log : List Event} (h : HaltsSince k y log) {e : Event}
    (last : ∀ n p answer s, e = .stepped n p answer s → p.isOf k = true →
      Process.Halts k y.errands n s (p.resume s answer)) : HaltsSince k y (log ++ [e]) := by
  obtain ⟨later, rfl, steps⟩ := h
  refine ⟨later ++ [e], List.append_assoc _ _ _, fun n p answer s there => ?_⟩
  rcases List.mem_append.mp there with there | there
  · exact steps n p answer s there
  · exact last n p answer s (List.mem_singleton.mp there).symm

/-- **What is under way since a coordinator was stopped**, at `y`. -/
structure Halted (k : CoordinatorId) (y x : Traffic) : Prop where
  rests : x.session.Rests k
  attempts : ∀ t ∈ x.errands, ∀ a, t.process = .attempt k a → Attempt.Led k y.errands t.number a
  log : HaltsSince k y x.log

namespace Halted

theorem refl (rests : y.session.Rests k) : Halted k y y where
  rests := rests
  attempts t ht a process := ⟨a, ⟨t, ht, rfl, process⟩, .inl rfl⟩
  log := ⟨[], (List.append_nil _).symm, fun _ _ _ _ there => absurd there List.not_mem_nil⟩

/-- Background work that enters is no attempt. -/
theorem absorb {z : Traffic} {session : Session} {errands : List Errand} (rests : session.Rests k)
    (attempts : ∀ t ∈ errands, ∀ a, t.process = .attempt k a → Attempt.Led k y.errands t.number a)
    (log : HaltsSince k y z.log) : Halted k y (z.absorb session errands) where
  rests := ⟨rests.loop, List.not_mem_nil⟩
  attempts t ht a process := by
    rcases List.mem_append.mp ht with ht | ht
    · exact attempts t ht a process
    · obtain ⟨j, hj, rfl⟩ := List.mem_mapIdx.mp ht
      have there := List.getElem_mem hj
      generalize session.started[j] = work at process there
      cases work <;> cases process
      exact absurd there rests.started
  log := log

/-- **One move**, while the coordinator is not active. -/
theorem step (halted : Halted k y x) (inactive : (x.session.coordinator k).active = false)
    (m : Traffic.Move) : Halted k y (x.step m) := by
  have stopped := halted.rests.stopped inactive
  -- what has a reply is where it was
  have replied {before after : List Errand} {t : Errand} {r : Option t.process.need.Answer}
      (split : x.errands = before ++ t :: after) :
      ∀ u ∈ before ++ ⟨t.number, t.process, r⟩ :: after,
        ∀ a, u.process = .attempt k a → Attempt.Led k y.errands u.number a := by
    intro u hu a process
    obtain ⟨v, hv, number, same⟩ := mem_replied hu
    rw [← split] at hv
    rw [← number]
    exact halted.attempts v hv a (same.trans process)
  obtain ⟨e, does⟩ := x.step_does m
  generalize x.step m = z at does ⊢
  cases does with
  | nothing => exact halted
  | deed d => exact absorb (halted.rests.deed d) halted.attempts halted.log
  | @enter p call =>
    refine ⟨halted.rests, fun t ht a process => ?_, halted.log⟩
    rcases List.mem_append.mp ht with ht | ht
    · exact halted.attempts t ht a process
    · obtain rfl := List.mem_singleton.mp ht
      obtain rfl : p = .attempt k a := process
      cases call
  | others store => exact ⟨halted.rests, halted.attempts, halted.log.concat fun _ _ _ _ => nofun⟩
  | carries i split =>
    exact ⟨halted.rests, replied split, halted.log.concat fun _ _ _ _ => nofun⟩
  | answers i oracle split =>
    exact ⟨halted.rests, replied split, halted.log.concat fun _ _ _ _ => nofun⟩
  | @goes i oracle before after t answer split =>
    have led := halted.attempts t ((perm_of_split split).mem_iff.mpr List.mem_cons_self)
    refine absorb (Process.rests_resume stopped halted.rests.started t.process answer) ?_ ?_
    · intro u hu a process
      rcases List.mem_append.mp hu with hu | hu
      · have mem := (perm_of_split split).mem_iff.mpr (List.mem_cons_of_mem _ hu)
        exact halted.attempts u mem a process
      · obtain ⟨number, next, -⟩ := Errand.of_mem_next? (Option.mem_toList.mp hu)
        rw [process] at next
        rw [number]
        exact Process.led_of_resume stopped answer led next
    · refine halted.log.concat fun n p got s same ofCoordinator => ?_
      cases same
      exact Process.halts_resume stopped answer ofCoordinator led

/-- **Every run**, as long as the coordinator is not active. -/
theorem run (rests : y.session.Rests k) (moves : List Traffic.Move)
    (inactive : ∀ first, first <+: moves →
      ((y.run first).session.coordinator k).active = false) : Halted k y (y.run moves) := by
  induction moves using List.reverseRecOn with
  | nil => exact refl rests
  | append_singleton moves m ih =>
    rw [run_concat]
    have before := List.prefix_append moves [m]
    exact (ih fun first h => inactive first (h.trans before)).step (inactive moves before) m

end Halted

/-- Background work enters at once. -/
theorem started_run {session : Session} {store : MemoryStore} (none : session.started = [])
    (moves : List Move) : ((start session store).run moves).session.started = [] := by
  induction moves using List.reverseRecOn with
  | nil => exact none
  | append_singleton moves m ih =>
    rw [run_concat]
    obtain ⟨e, does⟩ := ((start session store).run moves).step_does m
    generalize ((start session store).run moves).step m = z at does ⊢
    cases does with
    | deed d => rfl
    | goes => rfl
    | _ => exact ih

/-- **A coordinator that is stopped halts.**  To stop it makes it inactive, and from then on, as
long as it is not active, whatever a process of it does fires no tick, begins no save and leaves the
interval as it is; and unless it is of an attempt that was undecided when the coordinator was
stopped, it completes a save that was in flight then, or does nothing. -/
theorem halts {session : Session} (none : session.started = []) (store : MemoryStore)
    (before : List Move) (k : CoordinatorId) :
    (∀ s : Session, (s.stopCoordinator k).Stopped k) ∧
      (((start session store).run before).session.Stopped k →
        ∀ moves : List Move, (∀ first, first <+: moves →
          ((((start session store).run before).run first).session.coordinator k).active = false) →
        ∀ later, (((start session store).run before).run moves).log =
          ((start session store).run before).log ++ later →
        ∀ n p answer s, .stepped n p answer s ∈ later → p.isOf k = true →
          Process.Halts k ((start session store).run before).errands n s (p.resume s answer)) := by
  refine ⟨fun s => Session.stopped_stopCoordinator s k, ?_⟩
  intro stopped moves inactive later log n p answer s there ofCoordinator
  have rests := stopped.rests (by
    rw [started_run none]
    exact List.not_mem_nil)
  obtain ⟨later', log', steps⟩ := (Halted.run rests moves inactive).log
  obtain rfl := List.append_cancel_left (log.symm.trans log')
  exact steps n p answer s there ofCoordinator

/-! ## 5. Runs of one document -/

/-- Every timer is over, and who is asked wants the version of the store. -/
def reverting : Oracle
  | .ask _ => .revert
  | .tick _ _ _ _ _ => .due
  | n => Oracle.obliging n

/-- A coordinator starts an attempt, which looks at the file. -/
def looks : List Move :=
  [.deed (.newCoordinator 0 (.ofMillis 1000)), .deed (.startCoordinator 0), .go 0 reverting,
    .go 0 reverting, .go 1 reverting]

/-- It finds the file as it was, begins to save, and is stopped. -/
def stopsWhileSaving : List Move :=
  looks ++ [.carryOut 1, .go 1 reverting, .deed (.stopCoordinator 0)]

/-- Others have written, and the coordinator is stopped before the attempt has looked. -/
def stopsWhileLooking : List Move :=
  looks ++ [.others Commons.secondStore, .deed (.stopCoordinator 0)]

/-- The attempt gets its reply, and goes on. -/
def goesOn : List Move := [.carryOut 1, .go 1 reverting]

theorem halts_stopsWhileSaving :
    let y := (start Commons.sampleSession Commons.firstStore).run stopsWhileSaving
    let x := y.run (goesOn ++ goes 0 1)
    y.errands.map (·.process.saves) = [false, true] ∧ x.errands.length = 0 ∧
      (x.session.context 0).model.dirty = false ∧
      ∀ later, x.log = y.log ++ later → ∀ n p answer s, .stepped n p answer s ∈ later →
        p.isOf 0 = true → Process.Halts 0 y.errands n s (p.resume s answer) := by
  refine ⟨by decide +kernel, by decide +kernel, by decide +kernel, ?_⟩
  have stopped : ((start Commons.sampleSession Commons.firstStore).run
      stopsWhileSaving).session.Stopped 0 := ⟨by decide +kernel, by decide +kernel⟩
  have inactive : ∀ n ≤ (goesOn ++ goes 0 1).length, ((((start Commons.sampleSession
      Commons.firstStore).run stopsWhileSaving).run
      ((goesOn ++ goes 0 1).take n)).session.coordinator 0).active = false := by decide +kernel
  refine (halts rfl Commons.firstStore stopsWhileSaving 0).2 stopped _ fun first before => ?_
  rw [List.prefix_iff_eq_take.mp before]
  exact inactive _ before.length_le

/-- **A coordinator that is stopped asks, and reloads the document**: its attempt was about to look
at the file when it was stopped.  The user is asked, and what the model held is lost. -/
theorem reloads_after_stop :
    let y := (start Commons.sampleSession Commons.firstStore).run stopsWhileLooking
    let z := y.run goesOn
    let x := z.run (.go 1 reverting :: goesOn)
    (y.session.coordinator 0).active = false ∧
      y.errands.filterMap (·.process.prompt?) = [] ∧
      (y.session.context 0).model = ⟨.text "mine", true, false⟩ ∧
      (z.session.coordinator 0).active = false ∧
      z.errands.filterMap (·.process.prompt?) = [⟨"a", some 1, 2⟩] ∧
      (x.session.coordinator 0).active = false ∧
      (x.session.context 0).model = ⟨.text "theirs", false, false⟩ := by
  decide +kernel

end Traffic

end Folio
