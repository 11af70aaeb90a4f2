/-
# The latch of a coordinator

A coordinator that has asked the user about a conflict is latched: it asks no second time until the
conflict is dealt with.  An attempt looks at the latch when it begins, and again in the step in
which it asks, which sets it; how many attempts are under way beside it makes no difference.

The latch stands for one attempt, the one that waits for the user or reloads the document because
the user wants that (`Attempt.isArbitrating`): what a step adds to the one it adds to the other
(`Attempt.latch_resume`, `Process.latch_resume`), so they are equal at all times
(`Traffic.latch_exact`).  An attempt that is told to overwrite the file gives up the latch before it
saves, and the coordinator may ask again while it does (`Traffic.overwrites_unlatched`).
-/
import Folio.Proofs.Autosave.OwnFile
import Folio.Proofs.Autosave.Stopping

namespace Folio

/-! ## 1. Attempts -/

namespace Attempt

/-- **The attempt deals with a conflict**: it waits for the user, or reloads the document because
the user wants that. -/
def isArbitrating : Attempt → Bool
  | .asking _ => true
  | .reverting _ => true
  | _ => false

/-- To begin a save is not to deal with a conflict, and leaves the coordinator alone. -/
theorem beginSave_coordinator (s : Scene) :
    (beginSave s).1.coordinator = s.coordinator ∧ (beginSave s).2.any isArbitrating = false := by
  unfold beginSave
  split
  · exact ⟨rfl, rfl⟩
  · exact ⟨rfl, rfl⟩

/-- A new interval does not touch the latch. -/
theorem arbitrating_recalibrate (k : Coordinator) (saveTook : Duration) :
    (k.recalibrate saveTook).arbitrating = k.arbitrating := by
  unfold Coordinator.recalibrate
  split <;> rfl

/-- **What a step of an attempt does to the latch** it does to the number of those that deal with a
conflict: it sets it and begins to deal with one, or clears it and is done with it, or neither. -/
theorem latch_resume (s : Scene) (a : Attempt) (answer : a.need.Answer)
    (held : a.isArbitrating = true → s.coordinator.arbitrating = true) :
    ((Attempt.resume s a answer).2.any isArbitrating).toNat + s.coordinator.arbitrating.toNat =
      a.isArbitrating.toNat + (Attempt.resume s a answer).1.coordinator.arbitrating.toNat := by
  cases a with
  | due =>
    obtain ⟨same, none⟩ := beginSave_coordinator s
    simp only [Attempt.resume, Attempt.begin]
    split
    · rfl
    · split
      · rw [same, none]
        rfl
      · rfl
  | checking path =>
    obtain ⟨same, none⟩ := beginSave_coordinator s
    simp only [Attempt.resume, afterCheck]
    split
    · rw [same, none]
      rfl
    · split
      · rw [same, none]
        rfl
      · split
        · rfl
        · next unlatched =>
          rw [Bool.not_eq_true] at unlatched
          simp [unlatched, isArbitrating, Coordinator.openConflict]
  | asking prompt =>
    have latched := held rfl
    obtain ⟨same, none⟩ :=
      beginSave_coordinator { s with coordinator := s.coordinator.closeConflict }
    cases answer with
    | cancel =>
      simp [Attempt.resume, afterAnswer, latched, isArbitrating, Coordinator.closeConflict]
    | overwrite =>
      simp only [Attempt.resume, afterAnswer]
      rw [same, none]
      simp [latched, isArbitrating, Coordinator.closeConflict]
    | revert =>
      simp only [Attempt.resume, afterAnswer]
      split
      · simp [latched, isArbitrating, Coordinator.closeConflict]
      · simp [isArbitrating]
  | reverting path =>
    simp [Attempt.resume, afterRevert, held rfl, isArbitrating, Coordinator.closeConflict]
  | saving since path request =>
    simp only [Attempt.resume, afterSave]
    split
    · rfl
    · simp [arbitrating_recalibrate, isArbitrating]

/-- **A version that is not known** is put to the user, once. -/
theorem Scene.resume_of_unknown (s : Scene) (path : String) {file : RemoteFile}
    (unknown : s.context.known ≠ some file.metadata.lastModified) :
    Attempt.resume s (.checking path) (.ok file) =
      if s.coordinator.arbitrating then (s, none)
      else ({ s with coordinator := s.coordinator.openConflict },
        some (.asking ⟨s.context.path, s.context.known, file.metadata.lastModified⟩)) := by
  simp only [Attempt.resume, afterCheck]
  exact if_neg unknown

end Attempt

/-! ## 2. Sessions -/

namespace Session

variable {s t u : Session}

/-- **All latches stay as they are.** -/
def KeepsLatches (s t : Session) : Prop :=
  ∀ k, (t.coordinator k).arbitrating = (s.coordinator k).arbitrating

namespace KeepsLatches

theorem of_eq (coordinators : t.coordinators = s.coordinators) : s.KeepsLatches t := by
  intro k
  rw [coordinator, coordinators, coordinator]

theorem trans (h : s.KeepsLatches t) (h' : t.KeepsLatches u) : s.KeepsLatches u :=
  fun k => (h' k).trans (h k)

theorem setCoordinator {k : CoordinatorId} {coordinator : Coordinator}
    (same : coordinator.arbitrating = (s.coordinator k).arbitrating) :
    s.KeepsLatches (s.setCoordinator k coordinator) :=
  looks_setCoordinator Coordinator.arbitrating same

theorem startCoordinator (s : Session) (k : CoordinatorId) :
    s.KeepsLatches (s.startCoordinator k) := by
  unfold Session.startCoordinator
  simp only
  split
  · exact of_eq rfl
  · next new number h =>
    refine (setCoordinator ?_).trans (of_eq rfl)
    unfold Coordinator.start at h
    split at h
    · cases h
    · cases h
      rfl

theorem setCoordinatorInterval (s : Session) (k : CoordinatorId) (interval : Duration) :
    s.KeepsLatches (s.setCoordinatorInterval k interval) := by
  refine setCoordinator ?_
  unfold Coordinator.setInterval
  simp only
  split <;> rfl

/-- A coordinator that is new is not latched, and neither was one that was not made. -/
theorem addCoordinator (s : Session) (c : ContextId) (interval : Duration) :
    s.KeepsLatches (s.addCoordinator (.create c interval)).1 :=
  looks_addCoordinator Coordinator.arbitrating rfl

theorem edit (h : s.Edit t) : s.KeepsLatches t := by
  cases h with
  | newTracked path factory isNew =>
    have added (c : Context) (interval : Duration) : s.KeepsLatches
        ((s.addContext c).1.addCoordinator (.create s.contexts.length interval)).1 :=
      (of_eq rfl).trans (addCoordinator (s.addContext c).1 _ interval)
    exact (added _ _).trans (of_eq rfl)
  | startCoordinator k => exact startCoordinator s k
  | stopCoordinator k => exact setCoordinator rfl
  | setCoordinatorInterval k interval => exact setCoordinatorInterval s k interval
  | retireWidget w => cases w <;> exact of_eq rfl
  | _ => exact of_eq rfl

theorem deed (s : Session) (d : Deed) : s.KeepsLatches (d.apply s) := by
  cases d with
  | newCoordinator c interval => exact addCoordinator s c interval
  | startCoordinator k => exact startCoordinator s k
  | stopCoordinator k => exact setCoordinator rfl
  | setInterval k interval => exact setCoordinatorInterval s k interval
  | disposeWidget w => cases w <;> exact of_eq rfl
  | _ => exact of_eq rfl

/-- **Only attempts touch a latch.** -/
theorem process (s : Session) {p : Process} (answer : p.need.Answer)
    (other : ∀ k a, p ≠ .attempt k a) : s.KeepsLatches (p.resume s answer).1 := by
  refine Process.keeps (P := s.KeepsLatches) (fun next on => on.trans (edit next)) ?_ (of_eq rfl)
    answer
  intro t makes
  cases makes with
  | starts k call reply => exact (of_eq rfl).trans (startCoordinator _ k)
  | reschedules runs => exact setCoordinator rfl
  | ends runs => exact setCoordinator rfl
  | acts k a given => exact absurd rfl (other k a)
  | _ => exact of_eq rfl

end KeepsLatches

end Session

/-! ## 3. Processes -/

namespace Process

/-- An attempt of the coordinator deals with a conflict. -/
def arbitratesFor (k : CoordinatorId) : Process → Bool
  | .attempt j a => j == k && a.isArbitrating
  | _ => false

/-- An attempt of the coordinator waits for the user. -/
def asksFor (k : CoordinatorId) : Process → Bool
  | .attempt j (.asking _) => j == k
  | _ => false

/-- An attempt of the coordinator waits for its save. -/
def savesFor (k : CoordinatorId) : Process → Bool
  | .attempt j (.saving _ _ _) => j == k
  | _ => false

/-- What becomes of the coordinator. -/
theorem coordinator_attempt {s : Session} {k : CoordinatorId} (made : k < s.coordinators.length)
    (a : Attempt) (answer : a.need.Answer) :
    ((Process.attempt k a).resume s answer).1.coordinator k =
      (Attempt.resume (s.scene k) a answer).1.coordinator := by
  rw [resume_attempt]
  exact Session.coordinator_setCoordinator _ made

/-- **What a step of a process does to a latch** it does to the number of those that deal with a
conflict. -/
theorem latch_resume {s : Session} {k : CoordinatorId} {p : Process} (answer : p.need.Answer)
    (sound : p.IsSound s)
    (held : p.arbitratesFor k = true → (s.coordinator k).arbitrating = true) :
    (p.resume s answer).2.elim (fun q => (q.arbitratesFor k).toNat) (fun _ => 0) +
        (s.coordinator k).arbitrating.toNat =
      (p.arbitratesFor k).toNat + ((p.resume s answer).1.coordinator k).arbitrating.toNat := by
  by_cases attempts : ∃ j a, p = .attempt j a
  · obtain ⟨j, a, rfl⟩ := attempts
    by_cases same : j = k
    · subst same
      have latch := Attempt.latch_resume (s.scene j) a answer fun arbitrates =>
        held (by simp [arbitratesFor, arbitrates])
      have scene : (s.scene j).coordinator = s.coordinator j := rfl
      rw [coordinator_attempt sound, resume_attempt]
      rw [scene] at latch
      cases goesOn : (Attempt.resume (s.scene j) a answer).2 with
      | none => simpa [goesOn, arbitratesFor] using latch
      | some next => simpa [goesOn, arbitratesFor] using latch
    · have away : (s.setScene j (Attempt.resume (s.scene j) a answer).1).coordinator k =
          s.coordinator k := Session.coordinator_setCoordinator_of_ne _ (Ne.symm same)
      have differs : (j == k) = false := beq_eq_false_iff_ne.mpr same
      rw [resume_attempt, away]
      cases (Attempt.resume (s.scene j) a answer).2 with
      | none => simp [arbitratesFor, differs]
      | some next => simp [arbitratesFor, differs]
  · have other (j : CoordinatorId) (a : Attempt) : p ≠ .attempt j a :=
      fun same => attempts ⟨j, a, same⟩
    have quiet : p.arbitratesFor k = false := by
      cases p with
      | attempt j a => exact absurd rfl (other j a)
      | _ => rfl
    rw [Session.KeepsLatches.process s answer other k, quiet]
    cases goesOn : (p.resume s answer).2 with
    | inr outcome => rfl
    | inl q =>
      have quiet : q.arbitratesFor k = false := by
        cases q with
        | attempt j a =>
          obtain ⟨stage, rfl⟩ := attempt_of_continues goesOn
          exact absurd rfl (other j stage)
        | _ => rfl
      simp [quiet]

/-- **Who is done with a conflict and goes on** saves. -/
theorem savesFor_of_done {s : Session} {k : CoordinatorId} {p q : Process} {answer : p.need.Answer}
    (arbitrates : p.arbitratesFor k = true) (next : (p.resume s answer).2 = .inl q)
    (done : q.arbitratesFor k = false) : q.savesFor k = true := by
  cases goesOn next with
  | @attempts j a following given follows =>
    obtain ⟨same, deals⟩ := Bool.and_eq_true_iff.mp arbitrates
    cases a with
    | asking prompt =>
      rcases Attempt.next_asking follows with ⟨-, rfl⟩ | ⟨-, rfl⟩
      · simp [arbitratesFor, Attempt.isArbitrating, same] at done
      · exact same
    | reverting path => cases follows
    | _ => cases deals
  | _ => cases arbitrates

/-- Who enters deals with no conflict. -/
theorem arbitratesFor_of_isFresh {k : CoordinatorId} {p : Process} (fresh : p.isFresh = true) :
    p.arbitratesFor k = false := by
  cases p with
  | attempt j a =>
    cases a with
    | due => simp [arbitratesFor, Attempt.isArbitrating]
    | _ => cases fresh
  | _ => rfl

/-- Who asks deals with a conflict. -/
theorem arbitratesFor_of_asksFor {k : CoordinatorId} {p : Process} (asks : p.asksFor k = true) :
    p.arbitratesFor k = true := by
  cases p with
  | attempt j a =>
    cases a with
    | asking prompt => simpa [arbitratesFor, asksFor, Attempt.isArbitrating] using asks
    | _ => cases asks
  | _ => cases asks

end Process

/-! ## 4. Runs -/

namespace Traffic

variable {x : Traffic}

/-- **How many attempts of a coordinator deal with a conflict.** -/
def arbiters (x : Traffic) (k : CoordinatorId) : Nat :=
  x.errands.countP fun t => t.process.arbitratesFor k

/-- The processes that enter add none. -/
theorem arbiters_absorb (x : Traffic) (session : Session) (errands : List Errand)
    (k : CoordinatorId) :
    (x.absorb session errands).arbiters k =
      errands.countP fun t => t.process.arbitratesFor k := by
  have none :
      session.started.countP (fun work => (Process.ofBackground work).arbitratesFor k) = 0 := by
    refine List.countP_eq_zero.mpr fun work _ => ?_
    simp [Process.arbitratesFor_of_isFresh (Process.isFresh_ofBackground work)]
  rw [arbiters, absorb, List.countP_append, countP_entering _ _ (Process.arbitratesFor k), none,
    Nat.add_zero]

/-- **The latches are kept**: each stands for one attempt that deals with a conflict. -/
structure Latched (x : Traffic) : Prop where
  sound : x.IsSound
  counted : ∀ k, x.arbiters k = (x.session.coordinator k).arbitrating.toNat

/-- Who deals with a conflict has set the latch. -/
theorem Latched.held (latched : x.Latched) {t : Errand} (there : t ∈ x.errands) {k : CoordinatorId}
    (arbitrates : t.process.arbitratesFor k = true) :
    (x.session.coordinator k).arbitrating = true := by
  have some_one : 0 < x.arbiters k := List.countP_pos_iff.mpr ⟨t, there, arbitrates⟩
  rw [latched.counted k] at some_one
  cases latch : (x.session.coordinator k).arbitrating with
  | true => rfl
  | false =>
    rw [latch] at some_one
    exact absurd some_one (Nat.lt_irrefl 0)

theorem Latched.step (latched : x.Latched) (m : Move) : (x.step m).Latched := by
  refine ⟨latched.sound.step m, fun k => ?_⟩
  have counted := latched.counted k
  obtain ⟨e, does⟩ := x.step_does m
  generalize x.step m = y at does ⊢
  cases does with
  | nothing => exact counted
  | deed d =>
    rw [arbiters_absorb]
    exact counted.trans (congrArg Bool.toNat (Session.KeepsLatches.deed x.session d k).symm)
  | @enter p call =>
    have quiet := Process.arbitratesFor_of_isFresh (k := k) (Process.isFresh_of_isCall call)
    simpa [arbiters, Traffic.enter, List.countP_append, quiet] using counted
  | others store => exact counted
  | carries i split =>
    rw [arbiters, split] at counted
    simpa [arbiters, List.countP_append, List.countP_cons] using counted
  | answers i oracle split =>
    rw [arbiters, split] at counted
    simpa [arbiters, List.countP_append, List.countP_cons] using counted
  | @goes i oracle before after t answer split =>
    have front := perm_of_split split
    have there : t ∈ x.errands := front.mem_iff.mpr List.mem_cons_self
    have latch := Process.latch_resume (k := k) answer (latched.sound.errands t there)
      (latched.held there)
    have others : x.arbiters k =
        (before ++ after).countP (fun t => t.process.arbitratesFor k) +
          (t.process.arbitratesFor k).toNat := by
      rw [arbiters, front.countP_eq, List.countP_cons]
      cases t.process.arbitratesFor k <;> rfl
    have next : (Errand.next? t.number (t.process.resume x.session answer).2).toList.countP
        (fun t => t.process.arbitratesFor k) = (t.process.resume x.session answer).2.elim
          (fun q => (q.arbitratesFor k).toNat) (fun _ => 0) := by
      cases (t.process.resume x.session answer).2 with
      | inl q => cases quiet : q.arbitratesFor k <;> simp [Errand.next?, quiet]
      | inr outcome => rfl
    rw [resumed, arbiters_absorb, List.countP_append, next]
    change _ = (((t.process.resume x.session answer).1).coordinator k).arbitrating.toNat
    omega

theorem latched_run (config : Settings) (store : MemoryStore) (moves : List Move) :
    ((start (.create config) store).run moves).Latched := by
  induction moves using List.reverseRecOn with
  | nil => exact ⟨⟨rfl, fun t ht => absurd ht List.not_mem_nil⟩, fun k => rfl⟩
  | append_singleton moves m ih =>
    rw [run_concat]
    exact ih.step m

/-- **Who is done with a conflict** has cleared the latch, and has ended or saves. -/
theorem Latched.clears (latched : x.Latched) (coherent : x.IsCoherent) (m : Move) {t : Errand}
    (there : t ∈ x.errands) {k : CoordinatorId} (arbitrates : t.process.arbitratesFor k = true)
    (done : ∀ u ∈ (x.step m).errands, u.number = t.number → u.process.arbitratesFor k = false) :
    ((x.step m).session.coordinator k).arbitrating = false ∧
      ∀ u ∈ (x.step m).errands, u.number = t.number → u.process.savesFor k = true := by
  rcases x.stays_or_goes m there with ⟨u, hu, number, same⟩ | ⟨others, answer, all, same⟩
  · have still := done u hu number
    rw [same, arbitrates] at still
    cases still
  · have held := latched.held there arbitrates
    have latch := Process.latch_resume (k := k) answer (latched.sound.errands t there) fun _ => held
    rw [same] at done ⊢
    have quiet {q : Process} (next : (t.process.resume x.session answer).2 = .inl q) :
        q.arbitratesFor k = false := by
      refine done ⟨t.number, q, none⟩ ?_ rfl
      refine List.mem_append_left _ (List.mem_append_right _ ?_)
      rw [next]
      exact List.mem_singleton_self _
    constructor
    · change ((t.process.resume x.session answer).1.coordinator k).arbitrating = false
      have none_left : (t.process.resume x.session answer).2.elim
          (fun q => (q.arbitratesFor k).toNat) (fun _ => 0) = 0 := by
        cases next : (t.process.resume x.session answer).2 with
        | inl q => rw [Sum.elim_inl, quiet next]; rfl
        | inr outcome => rfl
      rw [none_left, held, arbitrates] at latch
      cases cleared : ((t.process.resume x.session answer).1.coordinator k).arbitrating with
      | false => rfl
      | true => simp [cleared] at latch
    · intro u hu number
      have next := coherent.led all hu number
      have still := quiet next
      exact Process.savesFor_of_done arbitrates next still

/-- **The latch of a coordinator is exact.**  In every run, it is set just while one attempt of the
coordinator deals with a conflict, from the step that asks the user to the one that gets an answer
other than to reload the document, or ends the reload; so no more than one question waits for the
user.  An attempt that is done with the conflict has cleared the latch, whatever the answer was and
whatever has become of the reload, and has ended or, if it is to overwrite the file, saves it then.
While the latch is clear, an attempt that is told of a version that is not known asks the user, and
while it is set it ends. -/
theorem latch_exact (config : Settings) (store : MemoryStore) (moves : List Move) (m : Move)
    (k : CoordinatorId) :
    let x := (start (.create config) store).run moves
    let y := x.step m
    x.arbiters k = (x.session.coordinator k).arbitrating.toNat ∧
      (x.errands.countP fun t => t.process.asksFor k) ≤ 1 ∧
      (∀ t ∈ x.errands, t.process.arbitratesFor k = true →
        (∃ u ∈ y.errands, u.number = t.number ∧ u.process.arbitratesFor k = true) ∨
          ((y.session.coordinator k).arbitrating = false ∧
            ∀ u ∈ y.errands, u.number = t.number → u.process.savesFor k = true)) ∧
      ∀ (path : String) (file : RemoteFile),
        (x.session.scene k).context.known ≠ some file.metadata.lastModified →
        ((Process.attempt k (.checking path)).resume x.session (.ok file)).2 =
          if (x.session.coordinator k).arbitrating then .inr .silent
          else .inl (.attempt k (.asking ⟨(x.session.scene k).context.path,
            (x.session.scene k).context.known, file.metadata.lastModified⟩)) := by
  intro x y
  have latched : x.Latched := latched_run config store moves
  refine ⟨latched.counted k, ?_, fun t there arbitrates => ?_, fun path file unknown => ?_⟩
  · have some_of_them : (x.errands.countP fun t => t.process.asksFor k) ≤ x.arbiters k :=
      List.countP_mono_left fun t _ asks => Process.arbitratesFor_of_asksFor asks
    rw [latched.counted k] at some_of_them
    exact Nat.le_trans some_of_them (Bool.toNat_le _)
  · by_cases goesOn : ∃ u ∈ y.errands, u.number = t.number ∧ u.process.arbitratesFor k = true
    · exact .inl goesOn
    · refine .inr (latched.clears (coherent_run _ store moves) m there arbitrates ?_)
      intro u hu number
      exact Bool.eq_false_iff.mpr fun still => goesOn ⟨u, hu, number, still⟩
  · have follows := (x.session.scene k).resume_of_unknown path unknown
    rw [Process.resume_attempt, follows]
    change _ = if (x.session.scene k).coordinator.arbitrating then _ else _
    split <;> rfl

/-- A document is made and loaded. -/
def loadsFirst : List Move :=
  [.deed (.newContext "a" "text" "file" .text), .enter (.operation 0 (.populate false)),
    .go 0 timely, .carryOut 0, .go 0 timely]

/-- It is edited, others write the file, and an attempt asks the user. -/
def asksAboutSecond : List Move :=
  loadsFirst ++ edits "mine" :: startsLoop 0 ++ attempts 1 ++ .others Commons.secondStore ::
    returns 1

/-- The user wants the version of the store, which has replied. -/
def revertsToSecond : List Move := asksAboutSecond ++ [.go 1 reverting, .carryOut 1]

theorem latch_exact_revertsToSecond :
    let x := (start (.create {}) Commons.firstStore).run revertsToSecond
    let y := x.step (.go 1 reverting)
    x.arbiters 0 = 1 ∧ (x.session.coordinator 0).arbitrating = true ∧
      (y.session.coordinator 0).arbitrating = false := by
  intro x y
  obtain ⟨counted, -, clears, -⟩ :=
    latch_exact {} Commons.firstStore revertsToSecond (.go 1 reverting) 0
  have one : x.arbiters 0 = 1 := by decide +kernel
  have latched : (x.session.coordinator 0).arbitrating = true := by
    cases latch : (x.session.coordinator 0).arbitrating with
    | true => rfl
    | false => simp [one, latch, x] at counted
  have gone : (y.errands.any fun u => u.process.arbitratesFor 0) = false := by decide +kernel
  refine ⟨one, latched, ?_⟩
  obtain ⟨t, there, arbitrates⟩ := List.countP_pos_iff.mp (one ▸ Nat.one_pos)
  rcases clears t there arbitrates with ⟨u, hu, -, still⟩ | ⟨cleared, -⟩
  · exact absurd still (List.any_eq_false.mp gone u hu)
  · exact cleared

/-- The user wants the file to be overwritten. -/
def overwritesSecond : List Move := asksAboutSecond ++ [.go 1 Commons.insisting]

/-- While it is, another attempt looks at the file. -/
def asksWhileOverwriting : List Move :=
  overwritesSecond ++ [.go 0 timely, .go 1 timely, .go 2 timely] ++ returns 2

/-- **A coordinator is not latched while it overwrites the file.**  The user has been asked and
wants the file to be overwritten; the save has begun and has not returned.  The latch is clear, and
another attempt asks the user about the same version. -/
theorem overwrites_unlatched :
    let asked := (start (.create {}) Commons.firstStore).run asksAboutSecond
    let x := (start (.create {}) Commons.firstStore).run overwritesSecond
    let y := (start (.create {}) Commons.firstStore).run asksWhileOverwriting
    asked.errands.filterMap (·.process.prompt?) = [⟨"a", some 1, 2⟩] ∧
      (asked.session.coordinator 0).arbitrating = true ∧
      x.errands.map (·.process.savesFor 0) = [false, true] ∧
      (x.session.coordinator 0).arbitrating = false ∧
      y.errands.map (·.process.savesFor 0) = [true, false, false] ∧
      y.errands.filterMap (·.process.prompt?) = [⟨"a", some 1, 2⟩] := by
  decide +kernel

end Traffic

end Folio
