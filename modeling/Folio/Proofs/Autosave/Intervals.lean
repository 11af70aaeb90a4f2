/-
# The intervals of a coordinator

A coordinator has three intervals: the configured one, the least one, and the current one, which
adapts to how long saves take.  They are set together, when the coordinator is made and when its
interval is set; only the current one changes otherwise, when an attempt has saved
(`Attempt.intervals_resume`).

So the configured interval is the least one, it is no shorter than the shortest that can be
configured, and the current interval is no shorter than the least (`Coordinator.Paced`).  That holds
in every run, however the operations of the coordinator and its saves overlap: a save that began
under another least interval is measured against the one that is in force when it completes.

The interval after a save is ten times as long as the save.  Such a multiple is exact in its seconds
and its nanoseconds, with what the nanoseconds carry, unless it is longer than the longest duration;
then it is that one (`Duration.scale_eq_max`).
-/
import Folio.Proofs.Autosave.Changes
import Folio.Proofs.Autosave.Loops

namespace Folio

/-! ## 1. Multiples of durations -/

namespace Duration

variable (d : Duration) (factor : Nat)

/-- The nanoseconds of a multiple that does not stop at the end of the range: whole seconds, to
which the nanoseconds beyond them carry, and what is left of these. -/
theorem nanos_mul_parts :
    d.nanos * factor =
      (d.seconds * factor + d.subsecondNanos * factor / nanosPerSecond) * nanosPerSecond +
        d.subsecondNanos * factor % nanosPerSecond := by
  have beyond := Nat.div_add_mod' (d.subsecondNanos * factor) nanosPerSecond
  calc d.nanos * factor
      = (d.seconds * nanosPerSecond + d.subsecondNanos) * factor := by rw [nanos_eq_parts]
    _ = d.seconds * factor * nanosPerSecond + d.subsecondNanos * factor := by
      rw [Nat.add_mul, Nat.mul_right_comm]
    _ = _ := by rw [Nat.add_mul, Nat.add_assoc, beyond]

variable {d factor}

/-- **A multiple within the range**, part by part. -/
theorem scale_parts
    (within : d.seconds * factor + d.subsecondNanos * factor / nanosPerSecond < secondsBound) :
    (d.scale factor).seconds = d.seconds * factor + d.subsecondNanos * factor / nanosPerSecond ∧
      (d.scale factor).subsecondNanos = d.subsecondNanos * factor % nanosPerSecond := by
  have parts := nanos_mul_parts d factor
  have rest : d.subsecondNanos * factor % nanosPerSecond < nanosPerSecond :=
    Nat.mod_lt _ (by decide)
  generalize d.seconds * factor + d.subsecondNanos * factor / nanosPerSecond = seconds
    at within parts
  generalize d.subsecondNanos * factor % nanosPerSecond = nanos at rest parts
  have whole : (d.scale factor).nanos = seconds * nanosPerSecond + nanos := by
    rw [scale, nanos_ofNanos, parts]
    refine Nat.min_eq_left ?_
    simp only [maxNanos, nanosPerSecond] at rest ⊢
    omega
  simp only [Duration.seconds, subsecondNanos, whole, nanosPerSecond] at rest ⊢
  omega

/-- **A multiple beyond the range** is the longest duration. -/
theorem scale_eq_max
    (beyond : secondsBound ≤ d.seconds * factor + d.subsecondNanos * factor / nanosPerSecond) :
    d.scale factor = max := by
  have more : maxNanos ≤ d.nanos * factor := by
    rw [nanos_mul_parts]
    calc maxNanos
        ≤ secondsBound * nanosPerSecond := Nat.sub_le _ _
      _ ≤ _ := Nat.mul_le_mul_right nanosPerSecond beyond
      _ ≤ _ := Nat.le_add_right _ _
  exact (mk.injEq _ _ _ _).mpr (Nat.min_eq_right more)

end Duration

namespace Autosave

/-- **The interval after a save** is ten times as long, stops at the longest duration, and is never
below the least. -/
theorem nanos_adaptedInterval (took least : Duration) :
    (adaptedInterval took least).nanos =
      Nat.max (Nat.min (took.nanos * saveMultiple) maxNanos) least.nanos :=
  Duration.nanos_longer _ _

theorem shortest_le_raisedInterval (interval : Duration) :
    shortestInterval.nanos ≤ (raisedInterval interval).nanos := by
  rw [raisedInterval, Duration.nanos_longer]
  exact Nat.le_max_left _ _

theorem least_le_adaptedInterval (took least : Duration) :
    least.nanos ≤ (adaptedInterval took least).nanos := by
  rw [nanos_adaptedInterval]
  exact Nat.le_max_right _ _

end Autosave

/-! ## 2. Coordinators -/

namespace Coordinator

/-- The configured interval, the least one, and the current one. -/
def intervals (c : Coordinator) : Duration × Duration × Duration :=
  (c.configured, c.least, c.current)

/-- **The intervals are in order.** -/
structure Paced (c : Coordinator) : Prop where
  configured : c.configured = c.least
  shortest : Autosave.shortestInterval.nanos ≤ c.least.nanos
  least : c.least.nanos ≤ c.current.nanos

namespace Paced

variable {c d : Coordinator}

theorem congr (paced : c.Paced) (same : d.intervals = c.intervals) : d.Paced := by
  obtain ⟨configured, least, current⟩ : d.configured = c.configured ∧ d.least = c.least ∧
      d.current = c.current := by simpa [intervals] using same
  exact ⟨by rw [configured, least]; exact paced.configured, by rw [least]; exact paced.shortest,
    by rw [least, current]; exact paced.least⟩

/-- All three are set to an interval that may be configured. -/
theorem of_raised (interval : Duration)
    (set : d.intervals = (Autosave.raisedInterval interval, Autosave.raisedInterval interval,
      Autosave.raisedInterval interval)) : d.Paced := by
  obtain ⟨configured, least, current⟩ : d.configured = Autosave.raisedInterval interval ∧
      d.least = Autosave.raisedInterval interval ∧
      d.current = Autosave.raisedInterval interval := by simpa [intervals] using set
  refine ⟨configured.trans least.symm, ?_, Nat.le_of_eq (by rw [least, current])⟩
  rw [least]
  exact Autosave.shortest_le_raisedInterval interval

/-- The current one adapts to a save. -/
theorem adapts (paced : c.Paced) (took : Duration)
    (adapted : d.intervals = (c.configured, c.least, Autosave.adaptedInterval took c.least)) :
    d.Paced := by
  obtain ⟨configured, least, current⟩ : d.configured = c.configured ∧ d.least = c.least ∧
      d.current = Autosave.adaptedInterval took c.least := by simpa [intervals] using adapted
  refine ⟨by rw [configured, least]; exact paced.configured,
    by rw [least]; exact paced.shortest, ?_⟩
  rw [least, current]
  exact Autosave.least_le_adaptedInterval took c.least

theorem create (context : ContextId) (interval : Duration) : (create context interval).Paced :=
  of_raised interval rfl

theorem setInterval (c : Coordinator) (interval : Duration) : (c.setInterval interval).Paced := by
  refine of_raised interval ?_
  unfold Coordinator.setInterval
  simp only
  split <;> rfl

end Paced

/-- **Every change leaves the intervals in order.** -/
theorem Change.paced {c d : Coordinator} (h : c.Change d) (paced : c.Paced) : d.Paced := by
  cases h with
  | made context interval unmade => exact .create context interval
  | start started =>
    unfold Coordinator.start at started
    split at started <;> cases started
    exact paced.congr rfl
  | setInterval interval => exact .setInterval c interval
  | recalibrate took =>
    unfold Coordinator.recalibrate
    split
    · exact paced.adapts took rfl
    · exact paced
  | _ => exact paced.congr rfl

end Coordinator

/-! ## 3. Attempts -/

namespace Attempt

/-- **How long the save took** with which an attempt ends, if it has saved and its coordinator is
active. -/
def tookIfActive? (s : Scene) : (a : Attempt) → a.need.Answer → Option Duration
  | .saving since _ _, .ok _ =>
    if s.coordinator.active then some (.ofMillis (s.now - since)) else none
  | _, _ => none

/-- **What a step of an attempt does to the intervals**: when it has saved, the current one adapts
to the time that it took, above the least one that is in force now; else nothing. -/
theorem intervals_resume (s : Scene) (a : Attempt) (answer : a.need.Answer) :
    (Attempt.resume s a answer).1.coordinator.intervals =
      match tookIfActive? s a answer with
      | some took => (s.coordinator.configured, s.coordinator.least,
          Autosave.adaptedInterval took s.coordinator.least)
      | none => s.coordinator.intervals := by
  have saves (s : Scene) : (beginSave s).1.coordinator = s.coordinator := by
    unfold beginSave
    split <;> rfl
  cases a with
  | due =>
    simp only [tookIfActive?, Attempt.resume, Attempt.begin]
    split
    · rfl
    · split
      · rw [saves]
      · rfl
  | checking path =>
    simp only [tookIfActive?, Attempt.resume, afterCheck]
    split
    · rw [saves]
    · split
      · rw [saves]
      · split <;> rfl
  | asking prompt =>
    simp only [tookIfActive?, Attempt.resume, afterAnswer]
    cases answer with
    | cancel => rfl
    | overwrite => rw [saves]; rfl
    | revert => simp only; split <;> rfl
  | reverting path => rfl
  | saving since path request =>
    cases answer with
    | error e => rfl
    | ok metadata =>
      cases active : s.coordinator.active <;>
        simp [tookIfActive?, Attempt.resume, afterSave, Context.afterSave, Coordinator.recalibrate,
          Coordinator.reschedule, Coordinator.intervals, active]

end Attempt

/-! ## 4. Sessions -/

namespace Session

variable {s t : Session}

/-- **The intervals of every coordinator are in order.** -/
def Paced (s : Session) : Prop := ∀ k, (s.coordinator k).Paced

/-- **However a process goes on**, the intervals stay in order. -/
theorem Paced.resume (paced : s.Paced) (p : Process) (answer : p.need.Answer) :
    (p.resume s answer).1.Paced := by
  intro k
  rcases p.changes s answer k with changes | ⟨_, _, _, _, -, -, wakes⟩
  · exact changes.keeps Coordinator.Change.paced (paced k)
  · -- its loop leaves the intervals alone
    rcases wakes with same | same <;> exact (paced k).congr (by rw [same]; rfl)

/-- **What a step of an attempt does to the intervals of its coordinator.** -/
theorem intervals_attempt {k : CoordinatorId} (made : k < s.coordinators.length) (a : Attempt)
    (answer : a.need.Answer) :
    (((Process.attempt k a).resume s answer).1.coordinator k).intervals =
      (Attempt.resume (s.scene k) a answer).1.coordinator.intervals := by
  have put (scene : Attempt.Scene) : (s.setScene k scene).coordinator k = scene.coordinator :=
    coordinator_setCoordinator _ made
  simp only [Process.resume]
  split <;> (next h => rw [h]; exact congrArg Coordinator.intervals (put _))

end Session

/-! ## 5. Runs -/

namespace Traffic

/-- **The intervals are in order in every run.** -/
theorem paced_run (config : Settings) (store : MemoryStore) (moves : List Move) :
    ((start (.create config) store).run moves).session.Paced := by
  induction moves using List.reverseRecOn with
  | nil => exact fun k => .create 0 Autosave.shortestInterval
  | append_singleton moves m ih =>
    rw [run_concat]
    generalize (start (.create config) store).run moves = x at ih
    obtain ⟨e, does⟩ := x.step_does m
    generalize x.step m = y at does ⊢
    cases does with
    | deed d =>
      intro k
      have changes := Session.ChangesCoordinator.deed k x.session d
      exact changes.keeps Coordinator.Change.paced (ih k)
    | @goes i oracle before after t answer => exact ih.resume t.process answer
    | _ => exact ih

/-- The coordinator of an attempt that took a step was made. -/
theorem made_of_attempted {config : Settings} {store : MemoryStore} {moves : List Move} {n : Nat}
    {k : CoordinatorId} {a : Attempt} {answer : a.need.Answer} {s : Session}
    (there : .stepped n (.attempt k a) answer s ∈ ((start (.create config) store).run moves).log) :
    k < s.coordinators.length := by
  obtain ⟨before, after, log⟩ := List.append_of_mem there
  obtain ⟨first, m, second, front, back, reply, -, rfl, -, rfl, split, -, -, -⟩ :=
    goes_of_log rfl log
  exact (sound_run config store first).errands ⟨n, .attempt k a, reply⟩
    (split ▸ List.mem_append_right _ List.mem_cons_self)

/-- **A save that is in flight began at its time**, in a step of the same attempt. -/
theorem since_of_saving {config : Settings} {store : MemoryStore} {moves : List Move} {n : Nat}
    {k : CoordinatorId} {since : Nat} {path : String} {request : SaveRequest}
    {reply : Except StoreError Metadata} {s : Session} {before after : List Event}
    (log : ((start (.create config) store).run moves).log =
      before ++ .stepped n (.attempt k (.saving since path request)) reply s :: after) :
    ∃ a answer s₀, .stepped n (.attempt k a) answer s₀ ∈ before ∧ s₀.now = since ∧
      ((Process.attempt k a).resume s₀ answer).2 =
        .inl (.attempt k (.saving since path request)) := by
  obtain ⟨_, _, course, -⟩ := course_of_log log
  rcases course.begun _ rfl with fresh | ⟨p, answer, s₀, there, led⟩
  · cases fresh
  · obtain ⟨a, rfl⟩ := Process.attempt_of_continues led
    refine ⟨a, answer, s₀, List.mem_of_mem_filter there, ?_, led⟩
    rcases Attempt.next_resume _ a answer _ (Process.attempt_continues led).1 with
      ⟨_, h⟩ | ⟨_, h⟩ | h | h <;> cases h
    rfl

/-- **The interval adapts to saves.**  In every state of every run the configured interval of a
coordinator is the least one, which is no shorter than the shortest that can be configured, and the
current one is no shorter than that.  When an attempt has saved while its coordinator is active, the
current interval is ten times as long as the save took since it was begun, but at most the longest
duration and at least the least interval as it is now; the other two stay.  All other steps of
attempts, be it that the save has failed or that nothing is saved, leave all three.

A multiple of a duration carries its nanoseconds into its seconds, and stops at the longest one. -/
theorem adaptive_interval (config : Settings) (store : MemoryStore) (moves : List Move)
    (k : CoordinatorId) :
    let x := (start (.create config) store).run moves
    (x.session.coordinator k).Paced ∧
      (∀ before after n since path request metadata s, x.log = before ++
        .stepped n (.attempt k (.saving since path request)) (.ok metadata) s :: after →
        (s.coordinator k).active = true →
        let y := ((Process.attempt k (.saving since path request)).resume s (.ok metadata)).1
        (∃ a answer s₀, .stepped n (.attempt k a) answer s₀ ∈ before ∧ s₀.now = since ∧
          ((Process.attempt k a).resume s₀ answer).2 =
            .inl (.attempt k (.saving since path request))) ∧
        (y.coordinator k).configured = (s.coordinator k).configured ∧
        (y.coordinator k).least = (s.coordinator k).least ∧
        (y.coordinator k).current.nanos =
          Nat.max (Nat.min ((Duration.ofMillis (s.now - since)).nanos * 10) maxNanos)
            (s.coordinator k).least.nanos) ∧
      (∀ n a answer s, .stepped n (.attempt k a) answer s ∈ x.log →
        Attempt.tookIfActive? (s.scene k) a answer = none →
        (((Process.attempt k a).resume s answer).1.coordinator k).intervals =
          (s.coordinator k).intervals) ∧
      ∀ took : Duration,
        let seconds := took.seconds * 10 + took.subsecondNanos * 10 / nanosPerSecond
        (seconds < secondsBound → (took.scale 10).seconds = seconds ∧
          (took.scale 10).subsecondNanos = took.subsecondNanos * 10 % nanosPerSecond) ∧
        (secondsBound ≤ seconds → took.scale 10 = .max) := by
  intro x
  refine ⟨paced_run config store moves k, ?_, ?_, fun took => ⟨Duration.scale_parts,
    Duration.scale_eq_max⟩⟩
  · intro before after n since path request metadata s log active y
    have there :
        Event.stepped n (.attempt k (.saving since path request)) (.ok metadata) s ∈ x.log :=
      log ▸ List.mem_append_right _ List.mem_cons_self
    have took : Attempt.tookIfActive? (s.scene k) (.saving since path request) (.ok metadata) =
        some (.ofMillis (s.now - since)) := if_pos active
    have intervals := Session.intervals_attempt (made_of_attempted there)
      (.saving since path request) (.ok metadata)
    rw [Attempt.intervals_resume, took] at intervals
    obtain ⟨configured, least, current⟩ := by simpa [Coordinator.intervals] using intervals
    refine ⟨since_of_saving log, configured, least, ?_⟩
    rw [current, Autosave.nanos_adaptedInterval]
    rfl
  · intro n a answer s there quiet
    rw [Session.intervals_attempt (made_of_attempted there), Attempt.intervals_resume, quiet]
    rfl

/-- An edit is saved by itself, and the store takes five seconds over it. -/
def savesForFiveSeconds : List Move :=
  loadsFirst ++ edits "mine" :: startsLoop 0 ++ attempts 1 ++ returns 1 ++
    [.deed (.setClock 5000), .carryOut 1]

/-- When the save returns the interval is fifty seconds. -/
theorem adaptive_interval_savesForFiveSeconds :
    let x := (start (.create {}) Commons.firstStore).run savesForFiveSeconds
    let y := (start (.create {}) Commons.firstStore).run (savesForFiveSeconds ++ [.go 1 timely])
    let p := Process.attempt 0 (.saving 0 "a" ⟨"file", .text "mine"⟩)
    y.log = x.log ++ .stepped 2 p (.ok ⟨2, 4⟩) x.session :: [] ∧
      (x.session.coordinator 0).active = true ∧
      (x.session.coordinator 0).current.nanos = 1000000000 ∧
      y.session.coordinator 0 = (p.resume x.session (.ok ⟨2, 4⟩)).1.coordinator 0 ∧
      (y.session.coordinator 0).current.nanos = 50000000000 ∧ (y.session.coordinator 0).Paced := by
  intro x y p
  have log : y.log = x.log ++ .stepped 2 p (.ok ⟨2, 4⟩) x.session :: [] := rfl
  have active : (x.session.coordinator 0).active = true := by decide +kernel
  have same : y.session.coordinator 0 = (p.resume x.session (.ok ⟨2, 4⟩)).1.coordinator 0 := rfl
  obtain ⟨paced, saves, -⟩ := adaptive_interval {} Commons.firstStore
    (savesForFiveSeconds ++ [.go 1 timely]) 0
  obtain ⟨-, -, -, current⟩ := saves _ _ _ _ _ _ _ _ log active
  refine ⟨log, active, by decide +kernel, same, ?_, paced⟩
  rw [same, current]
  decide +kernel

end Traffic

end Folio
