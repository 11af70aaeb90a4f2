/-
# Which context a process deals with

An operation deals with its context, and a load or an attempt with the context of its coordinator.
That stays the same as long as the process runs, because a process is only ever started for a
coordinator that was made (`Process.IsSound`), and a coordinator that was made keeps its context.
-/
import Folio.Proofs.Ensemble.Owner
import Folio.Proofs.Session.Edits
import Folio.Proofs.Manager.Paths
import Folio.Proofs.Traffic.Basic

namespace Folio

/-! ## 1. Dealing with a context -/

namespace Process

/-- **The process deals with a context.** -/
def dealsWith (s : Session) (c : ContextId) : Process → Bool
  | .operation d _ => d == c
  | .calling d _ => d == c
  | .load k _ => (s.coordinator k).context == c
  | .loading k _ => (s.coordinator k).context == c
  | .attempt k _ => (s.coordinator k).context == c
  | _ => false

/-- **The process is of a coordinator that was made**, if it is of one. -/
def IsSound (s : Session) : Process → Prop
  | .load k _ => k < s.coordinators.length
  | .loading k _ => k < s.coordinators.length
  | .attempt k _ => k < s.coordinators.length
  | _ => True

variable {s t : Session} {p : Process}

/-- Coordinators are only ever added. -/
theorem IsSound.grows (sound : p.IsSound s) (more : s.coordinators.length ≤ t.coordinators.length) :
    p.IsSound t := by
  cases p with
  | load k isNew => exact Nat.lt_of_lt_of_le sound more
  | loading k call => exact Nat.lt_of_lt_of_le sound more
  | attempt k a => exact Nat.lt_of_lt_of_le sound more
  | _ => trivial

/-- **A process goes on dealing with its context.** -/
theorem IsSound.dealsWith_advances (sound : p.IsSound s) (on : s.Advances t) (c : ContextId) :
    p.dealsWith t c = p.dealsWith s c := by
  cases p with
  | load k isNew => rw [dealsWith, dealsWith, on.coordinator k sound]
  | loading k call => rw [dealsWith, dealsWith, on.coordinator k sound]
  | attempt k a => rw [dealsWith, dealsWith, on.coordinator k sound]
  | _ => rfl

theorem isSound_of_isCall (call : p.isCall = true) : p.IsSound s := by
  cases p with
  | load k isNew => cases call
  | loading k c => cases call
  | attempt k a => cases call
  | _ => trivial

/-- **What a process goes on as** is sound if it was, and deals with the same context. -/
theorem IsSound.continues (sound : p.IsSound s) {answer : p.need.Answer} {q : Process}
    (h : (p.resume s answer).2 = .inl q) :
    q.IsSound s ∧ ∀ c, q.dealsWith s c = p.dealsWith s c := by
  cases goesOn h with
  | loads begun => exact ⟨sound, fun _ => rfl⟩
  | loadsAgain again => exact ⟨sound, fun _ => rfl⟩
  | attempts follows => exact ⟨sound, fun _ => rfl⟩
  | _ => exact ⟨trivial, fun _ => rfl⟩

end Process

/-! ## 2. What is started -/

/-- **What has been started** is of coordinators that were made. -/
def Session.StartsSound (s : Session) : Prop :=
  ∀ work ∈ s.started, (Process.ofBackground work).IsSound s

namespace Session.StartsSound

variable {s t : Session}

/-- Nothing more is started. -/
theorem of_started (h : s.StartsSound) (started : t.started = s.started)
    (more : s.coordinators.length ≤ t.coordinators.length) : t.StartsSound :=
  fun work there => (h work (started ▸ there)).grows more

theorem setCoordinator (h : s.StartsSound) (k : CoordinatorId) (coordinator : Coordinator) :
    (s.setCoordinator k coordinator).StartsSound :=
  h.of_started rfl (Nat.le_of_eq List.length_set.symm)

theorem setContext (h : s.StartsSound) (c : ContextId) (context : Context) :
    (s.setContext c context).StartsSound := h.of_started rfl (Nat.le_refl _)

theorem start (h : s.StartsSound) {work : Background}
    (sound : (Process.ofBackground work).IsSound s) : (s.start work).StartsSound := by
  intro other there
  rcases List.mem_append.mp there with there | there
  · exact (h other there).grows (Nat.le_refl _)
  · rw [List.mem_singleton.mp there]
    exact sound.grows (Nat.le_refl _)

theorem startCoordinator (h : s.StartsSound) (k : CoordinatorId) :
    (s.startCoordinator k).StartsSound := by
  unfold Session.startCoordinator
  simp only
  split
  · exact h
  · exact (h.setCoordinator k _).start trivial

/-- No edit starts anything for a coordinator that was not made. -/
theorem edit (h : s.StartsSound) (edit : s.Edit t) : t.StartsSound := by
  cases edit with
  | newTracked path factory isNew =>
    have more (c : ContextId) (interval : Duration) :
        s.coordinators.length < (s.coordinators ++ [Coordinator.create c interval]).length := by
      rw [List.length_append, List.length_singleton]
      exact Nat.lt_succ_self _
    have added (c : Context) (d : ContextId) (interval : Duration) :
        ((s.addContext c).1.addCoordinator (.create d interval)).1.StartsSound :=
      h.of_started rfl (Nat.le_of_lt (more d interval))
    exact (added _ _ _).start (more _ _)
  | startCoordinator k => exact h.startCoordinator k
  | stopCoordinator k => exact h.setCoordinator k _
  | setCoordinatorInterval k interval => exact h.setCoordinator k _
  | retireWidget w => cases w <;> exact h.of_started rfl (Nat.le_refl _)
  | _ => exact h.of_started rfl (Nat.le_refl _)

theorem deed (h : s.StartsSound) (d : Deed) : (d.apply s).StartsSound := by
  cases d with
  | newCoordinator c interval =>
    exact h.of_started rfl (by simp [Deed.apply, Session.addCoordinator])
  | startCoordinator k => exact h.startCoordinator k
  | stopCoordinator k => exact h.setCoordinator k _
  | setInterval k interval => exact h.setCoordinator k _
  | disposeWidget w => cases w <;> exact h.of_started rfl (Nat.le_refl _)
  | _ => exact h.of_started rfl (Nat.le_refl _)

/-- **No step starts anything** for a coordinator that was not made. -/
theorem resume (h : s.StartsSound) (p : Process) (answer : p.need.Answer) :
    (p.resume s answer).1.StartsSound := by
  refine Process.keeps (P := StartsSound) (fun edit h => h.edit edit) ?_ h answer
  intro t makes
  cases makes with
  | nothing => exact h
  | called c call reply => exact h.setContext c _
  | loads k call reply => exact h.setContext _ _
  | starts k call reply => exact (h.setContext _ _).startCoordinator k
  | @fires k number place c interval runs =>
    -- no loop of a coordinator that was not made may run
    exact h.start (Session.made_of_runs runs)
  | reschedules => exact h.setCoordinator _ _
  | ends => exact h.setCoordinator _ _
  | acts k a answer => exact (h.setContext _ _).setCoordinator k _

end Session.StartsSound

/-! ## 3. Traffic -/

/-- **All that is under way** is of coordinators that were made. -/
structure Traffic.IsSound (x : Traffic) : Prop where
  started : x.session.started = []
  errands : ∀ t ∈ x.errands, t.process.IsSound x.session

/-- A step of a process carries the session on. -/
theorem Traffic.advances_resumed (x : Traffic) (others : List Errand) (t : Errand)
    (answer : t.process.need.Answer) :
    x.session.Advances (x.resumed others t answer).session :=
  (Session.Advances.process x.session t.process answer).trans (.of_eq rfl rfl)

/-- Every move carries the session on. -/
theorem Traffic.advances_step (x : Traffic) (m : Traffic.Move) :
    x.session.Advances (x.step m).session := by
  obtain ⟨e, does⟩ := x.step_does m
  generalize x.step m = y at does ⊢
  cases does with
  | deed d => exact (Session.Advances.deed x.session d).trans (.of_eq rfl rfl)
  | goes => exact x.advances_resumed _ _ _
  | _ => exact .of_eq rfl rfl

/-- And so does every run. -/
theorem Traffic.advances_run (x : Traffic) (moves : List Traffic.Move) :
    x.session.Advances (x.run moves).session := by
  induction moves generalizing x with
  | nil => exact .refl x.session
  | cons m moves ih => exact (x.advances_step m).trans (ih (x.step m))

namespace Traffic.IsSound

variable {x : Traffic}

theorem absorb {session : Session} {errands : List Errand} (sound : session.StartsSound)
    (others : ∀ t ∈ errands, t.process.IsSound session) : (x.absorb session errands).IsSound where
  started := rfl
  errands t ht := by
    refine Process.IsSound.grows (s := session) ?_ (Nat.le_refl _)
    rcases List.mem_append.mp ht with ht | ht
    · exact others t ht
    · obtain ⟨j, hj, rfl⟩ := List.mem_mapIdx.mp ht
      exact sound _ (List.getElem_mem hj)

theorem step (sound : x.IsSound) (m : Move) : (x.step m).IsSound := by
  have starts : x.session.StartsSound := fun work there => by
    rw [sound.started] at there
    cases there
  obtain ⟨e, does⟩ := x.step_does m
  generalize x.step m = y at does ⊢
  cases does with
  | nothing => exact sound
  | deed d =>
    refine absorb (starts.deed d) fun t ht => ?_
    exact (sound.errands t ht).grows (Session.Advances.deed _ d).coordinators_length
  | @enter p call =>
    refine ⟨sound.started, fun t ht => ?_⟩
    rcases List.mem_append.mp ht with ht | ht
    · exact sound.errands t ht
    · rw [List.mem_singleton.mp ht]
      exact Process.isSound_of_isCall call
  | others store => exact ⟨sound.started, sound.errands⟩
  | carries i split =>
    refine ⟨sound.started, fun u hu => ?_⟩
    obtain ⟨t, ht, -, same⟩ := mem_replied hu
    exact same ▸ sound.errands t (split ▸ ht)
  | answers i oracle split =>
    refine ⟨sound.started, fun u hu => ?_⟩
    obtain ⟨t, ht, -, same⟩ := mem_replied hu
    exact same ▸ sound.errands t (split ▸ ht)
  | @goes i oracle before after t answer split =>
    have mem {u : Errand} (hu : u ∈ t :: (before ++ after)) : u ∈ x.errands :=
      (perm_of_split split).mem_iff.mpr hu
    have on := (Session.Advances.process x.session t.process answer).coordinators_length
    refine absorb (starts.resume t.process answer) fun u hu => ?_
    rcases List.mem_append.mp hu with hu | hu
    · exact (sound.errands u (mem (List.mem_cons_of_mem t hu))).grows on
    · obtain ⟨-, next, -⟩ := Errand.of_mem_next? (Option.mem_toList.mp hu)
      exact ((sound.errands t (mem List.mem_cons_self)).continues next).1.grows on

/-- **Who deals with a context** before a step deals with it afterwards. -/
theorem dealsWith_resumed (sound : x.IsSound) {u : Errand} (hu : u ∈ x.errands)
    (others : List Errand) (t : Errand) (answer : t.process.need.Answer) (c : ContextId) :
    u.process.dealsWith (x.resumed others t answer).session c = u.process.dealsWith x.session c :=
  (sound.errands u hu).dealsWith_advances (x.advances_resumed others t answer) c

/-- What goes on deals with the context of the process that took the step. -/
theorem dealsWith_next (sound : x.IsSound) {t : Errand} (ht : t ∈ x.errands)
    {answer : t.process.need.Answer} {q : Process}
    (h : (t.process.resume x.session answer).2 = .inl q) (others : List Errand) (c : ContextId) :
    q.dealsWith (x.resumed others t answer).session c = t.process.dealsWith x.session c := by
  obtain ⟨made, same⟩ := (sound.errands t ht).continues h
  exact (made.dealsWith_advances (x.advances_resumed others t answer) c).trans (same c)

end Traffic.IsSound

theorem Traffic.sound_run (config : Settings) (store : MemoryStore) (moves : List Move) :
    ((start (.create config) store).run moves).IsSound := by
  induction moves using List.reverseRecOn with
  | nil => exact ⟨rfl, fun t ht => absurd ht List.not_mem_nil⟩
  | append_singleton moves m ih =>
    rw [run_concat]
    exact ih.step m

end Folio
