/-
# The steps of an attempt

An attempt that goes on has left its context as it was: what it does to the context it does at its
end.  What it does next depends on what it has got.  After the metadata it saves if they are what is
known or cannot be had, and asks the user otherwise; after the answer of the user it reloads or
saves.
-/
import Folio.Proofs.Manager.Paths

namespace Folio

/-! ## 1. Attempts by themselves -/

/-- A coordinator but for its timer and its latch. -/
def Coordinator.core (k : Coordinator) : Coordinator :=
  { k with current := k.least, arbitrating := false, rescheduled := false }

theorem Coordinator.core_recalibrate (k : Coordinator) (saveTook : Duration) :
    (k.recalibrate saveTook).core = k.core := by
  simp only [core, recalibrate, reschedule]
  split <;> rfl

namespace Attempt

/-- Up to its reload or its save, an attempt leaves the context as it is. -/
theorem context_resume_due (s : Scene) : (Attempt.resume s .due ()).1.context = s.context := by
  simp only [Attempt.resume, Attempt.begin, beginSave]
  split
  · rfl
  · split
    · split <;> rfl
    · rfl

theorem context_resume_checking (s : Scene) (path : String)
    (reply : Except StoreError RemoteFile) :
    (Attempt.resume s (.checking path) reply).1.context = s.context := by
  simp only [Attempt.resume, afterCheck, beginSave]
  split
  · split <;> rfl
  · split
    · split <;> rfl
    · split <;> rfl

theorem context_resume_asking (s : Scene) (prompt : ConflictPrompt) (answer : Resolution) :
    (Attempt.resume s (.asking prompt) answer).1.context = s.context := by
  cases answer with
  | cancel => rfl
  | revert => simp only [Attempt.resume, afterAnswer]; split <;> rfl
  | overwrite => simp only [Attempt.resume, afterAnswer, beginSave]; split <;> rfl

/-- The context of a save is told of its reply, whatever becomes of the coordinator. -/
theorem context_afterSave (s : Scene) (since : Nat) (reply : Except StoreError Metadata) :
    (afterSave s since reply).context = (s.context.afterSave reply).1 := by
  simp only [afterSave]
  split <;> rfl

/-- **An attempt sets the timer of its coordinator anew and sets or clears the latch**; it touches
nothing else of it. -/
theorem core_resume (s : Scene) (a : Attempt) (answer : a.need.Answer) :
    (Attempt.resume s a answer).1.coordinator.core = s.coordinator.core := by
  have saves (s : Scene) : (beginSave s).1.coordinator = s.coordinator := by
    unfold beginSave
    split <;> rfl
  cases a with
  | due =>
    simp only [Attempt.resume, Attempt.begin]
    split
    · rfl
    · split
      · rw [saves]
      · rfl
  | checking path =>
    simp only [Attempt.resume, afterCheck]
    split
    · rw [saves]
    · split
      · rw [saves]
      · split <;> rfl
  | asking prompt =>
    simp only [Attempt.resume, afterAnswer]
    cases answer with
    | cancel => rfl
    | overwrite => rw [saves]; rfl
    | revert => simp only; split <;> rfl
  | reverting path => rfl
  | saving since path request =>
    simp only [Attempt.resume, afterSave]
    split
    · rfl
    · exact Coordinator.core_recalibrate _ _

/-- **An attempt that begins** asks for the metadata of the file where its context is. -/
theorem next_due {s : Scene} {next : Attempt} (h : (Attempt.resume s .due ()).2 = some next) :
    next = .checking s.context.path := by
  simp only [Attempt.resume, Attempt.begin, beginSave] at h
  split at h
  · cases h
  · split at h
    · next disposed =>
      rw [disposed, Bool.not_true, Bool.and_false] at h
      cases h
    · exact (Option.some.inj h).symm

/-- **What follows the metadata**: a save, if there are none or they are the ones that are known,
and otherwise a question that names both. -/
theorem next_checking {s : Scene} {path : String} {reply : Except StoreError RemoteFile}
    {next : Attempt} (h : (Attempt.resume s (.checking path) reply).2 = some next) :
    (next = .saving s.now s.context.path s.context.saveRequest ∧
      ∀ file, reply = .ok file →
        s.context.remote.map (·.lastModified) = some file.metadata.lastModified) ∨
    ∃ file, reply = .ok file ∧
      next = .asking ⟨s.context.path, s.context.remote.map (·.lastModified),
        file.metadata.lastModified⟩ := by
  cases reply with
  | error e =>
    simp only [Attempt.resume, afterCheck, beginSave] at h
    split at h
    · exact Or.inl ⟨(Option.some.inj h).symm, fun _ same => by cases same⟩
    · cases h
  | ok file =>
    simp only [Attempt.resume, afterCheck, beginSave] at h
    split at h
    · next known =>
      split at h
      · refine Or.inl ⟨(Option.some.inj h).symm, fun other same => ?_⟩
        cases same
        exact known
      · cases h
    · split at h
      · cases h
      · exact Or.inr ⟨file, rfl, (Option.some.inj h).symm⟩

/-- **What follows the answer of the user**: a reload, or a save. -/
theorem next_asking {s : Scene} {prompt : ConflictPrompt} {answer : Resolution} {next : Attempt}
    (h : (Attempt.resume s (.asking prompt) answer).2 = some next) :
    (answer = .revert ∧ next = .reverting s.context.path) ∨
      (answer = .overwrite ∧ next = .saving s.now s.context.path s.context.saveRequest) := by
  cases answer with
  | cancel => cases h
  | revert =>
    simp only [Attempt.resume, afterAnswer] at h
    split at h
    · cases h
    · exact Or.inl ⟨rfl, (Option.some.inj h).symm⟩
  | overwrite =>
    simp only [Attempt.resume, afterAnswer, beginSave] at h
    split at h
    · exact Or.inr ⟨rfl, (Option.some.inj h).symm⟩
    · cases h

/-- **What an attempt does next**: it waits for the metadata, for the user, for a reload or for a
save, and a save hands over the document as it is. -/
theorem next_resume (s : Scene) : (a : Attempt) → (answer : a.need.Answer) → (next : Attempt) →
    (Attempt.resume s a answer).2 = some next →
    (∃ path, next = .checking path) ∨ (∃ prompt, next = .asking prompt) ∨
      next = .reverting s.context.path ∨
      next = .saving s.now s.context.path s.context.saveRequest
  | .due, (), _, h => Or.inl ⟨_, next_due h⟩
  | .checking _, _, _, h => by
    rcases next_checking h with ⟨saves, -⟩ | ⟨file, -, asks⟩
    · exact Or.inr (Or.inr (Or.inr saves))
    · exact Or.inr (Or.inl ⟨_, asks⟩)
  | .asking _, _, _, h => by
    rcases next_asking h with ⟨-, reloads⟩ | ⟨-, saves⟩
    · exact Or.inr (Or.inr (Or.inl reloads))
    · exact Or.inr (Or.inr (Or.inr saves))
  | .reverting _, _, _, h => by cases h
  | .saving _ _ _, _, _, h => by cases h

/-- An attempt at a stage, with what it gets. -/
abbrev Given : Type := (a : Attempt) × a.need.Answer

/-- **Who looks at a file** has just begun, and looks where the context is. -/
theorem of_next_checking {s : Scene} {a : Attempt} {answer : a.need.Answer} {path : String}
    (h : (Attempt.resume s a answer).2 = some (.checking path)) : path = s.context.path := by
  cases a with
  | due =>
    have next := next_due h
    exact Attempt.checking.inj next
  | checking place =>
    rcases next_checking h with ⟨saves, -⟩ | ⟨file, -, asks⟩
    · cases saves
    · cases asks
  | asking prompt =>
    rcases next_asking h with ⟨-, reloads⟩ | ⟨-, saves⟩
    · cases reloads
    · cases saves
  | reverting place => cases h
  | saving since place request => cases h

/-- **Who asks** has just looked at the file, and tells what it has found. -/
theorem of_next_asking {s : Scene} {a : Attempt} {answer : a.need.Answer}
    {prompt : ConflictPrompt} (h : (Attempt.resume s a answer).2 = some (.asking prompt)) :
    ∃ path file, (⟨a, answer⟩ : Given) = ⟨.checking path, .ok file⟩ ∧
      prompt.path = s.context.path ∧ prompt.remote = file.metadata.lastModified := by
  cases a with
  | due =>
    have next := next_due h
    cases next
  | checking path =>
    rcases next_checking h with ⟨saves, -⟩ | ⟨file, replied, asks⟩
    · cases saves
    · cases asks
      exact ⟨path, file, by rw [replied], rfl, rfl⟩
  | asking prompt =>
    rcases next_asking h with ⟨-, reloads⟩ | ⟨-, saves⟩
    · cases reloads
    · cases saves
  | reverting place => cases h
  | saving since place request => cases h

/-- **Who saves** has just looked at the file and found what is known, if anything; or the user has
told it to overwrite. -/
theorem of_next_saving {s : Scene} {a : Attempt} {answer : a.need.Answer} {since : Nat}
    {path : String} {request : SaveRequest}
    (h : (Attempt.resume s a answer).2 = some (.saving since path request)) :
    path = s.context.path ∧
      ((∃ place reply, (⟨a, answer⟩ : Given) = ⟨.checking place, reply⟩ ∧
          ∀ file, reply = .ok file →
            s.context.remote.map (·.lastModified) = some file.metadata.lastModified) ∨
        ∃ prompt, (⟨a, answer⟩ : Given) = ⟨.asking prompt, .overwrite⟩) := by
  cases a with
  | due =>
    have next := next_due h
    cases next
  | checking place =>
    rcases next_checking h with ⟨saves, known⟩ | ⟨file, -, asks⟩
    · cases saves
      exact ⟨rfl, Or.inl ⟨place, answer, rfl, known⟩⟩
    · cases asks
  | asking prompt =>
    rcases next_asking h with ⟨-, reloads⟩ | ⟨overwrite, saves⟩
    · cases reloads
    · cases saves
      exact ⟨rfl, Or.inr ⟨prompt, by rw [overwrite]⟩⟩
  | reverting place => cases h
  | saving since place request => cases h

/-- An attempt that goes on has left the context as it was. -/
theorem context_of_next (s : Scene) : (a : Attempt) → (answer : a.need.Answer) → (next : Attempt) →
    (Attempt.resume s a answer).2 = some next → (Attempt.resume s a answer).1.context = s.context
  | .due, (), _, _ => context_resume_due s
  | .checking path, reply, _, _ => context_resume_checking s path reply
  | .asking prompt, answer, _, _ => context_resume_asking s prompt answer
  | .reverting _, _, _, h => by cases h
  | .saving _ _ _, _, _, h => by cases h

end Attempt

/-! ## 2. Attempts in a session -/

/-- **What the user is asked** by an attempt that waits for the answer. -/
def Process.prompt? : Process → Option ConflictPrompt
  | .attempt _ (.asking prompt) => some prompt
  | _ => none

/-- Replacing a coordinator by one that looks the same leaves the looks of all. -/
theorem Session.looks_setCoordinator {α : Type} (looks : Coordinator → α) {s : Session}
    {k : CoordinatorId} {coordinator : Coordinator}
    (h : looks coordinator = looks (s.coordinator k)) (j : CoordinatorId) :
    looks ((s.setCoordinator k coordinator).coordinator j) = looks (s.coordinator j) := by
  by_cases hjk : j = k
  · subst hjk
    by_cases hj : j < s.coordinators.length
    · rw [coordinator_setCoordinator coordinator hj, h]
    · have same : s.coordinators.set j coordinator = s.coordinators :=
        List.set_eq_of_length_le (Nat.le_of_not_lt hj)
      rw [Session.coordinator, setCoordinator, same, Session.coordinator]
  · rw [coordinator_setCoordinator_of_ne coordinator hjk]

/-- A coordinator that is new looks like one that was not made, if it looks like that one: so adding
it leaves the looks of all. -/
theorem Session.looks_addCoordinator {α : Type} (looks : Coordinator → α) {s : Session}
    {coordinator : Coordinator} (h : looks coordinator = looks default) (j : CoordinatorId) :
    looks ((s.addCoordinator coordinator).1.coordinator j) = looks (s.coordinator j) := by
  rcases Nat.lt_or_ge j s.coordinators.length with before | new
  · rw [coordinator_addCoordinator_of_lt _ before]
  · have unmade : s.coordinator j = default := by
      rw [Session.coordinator, List.getElem?_eq_none new]
      rfl
    rw [unmade]
    rcases Nat.eq_or_lt_of_le new with rfl | beyond
    · rw [coordinator_addCoordinator, h]
    · have more : (s.addCoordinator coordinator).1.coordinators.length ≤ j := by
        rw [addCoordinator, List.length_append, List.length_singleton]
        exact beyond
      rw [Session.coordinator, List.getElem?_eq_none more]
      rfl

/-- A coordinator whose scene is put back with the same context has that context. -/
theorem Session.context_scene_setScene {s : Session} {k : CoordinatorId} {scene : Attempt.Scene}
    (owner : scene.coordinator.context = (s.coordinator k).context)
    (same : scene.context = (s.scene k).context) :
    ((s.setScene k scene).scene k).context = (s.scene k).context := by
  have stays : ((s.setScene k scene).coordinator k).context = (s.coordinator k).context :=
    looks_setCoordinator Coordinator.context owner k
  have context : ((s.setScene k scene).context (s.coordinator k).context) =
      s.context (s.coordinator k).context := looks_setContext id same _
  rw [Session.scene, stays]
  exact context

namespace Process

/-- What goes on as an attempt was one of the same coordinator. -/
theorem attempt_of_continues {s : Session} {p : Process} {answer : p.need.Answer}
    {k : CoordinatorId} {next : Attempt} (h : (p.resume s answer).2 = .inl (.attempt k next)) :
    ∃ stage, p = .attempt k stage := by
  cases goesOn h
  exact ⟨_, rfl⟩

/-- **An attempt that goes on** in a session: its context stays as it is. -/
theorem attempt_continues {s : Session} {k : CoordinatorId} {stage next : Attempt}
    {answer : stage.need.Answer}
    (h : ((Process.attempt k stage).resume s answer).2 = .inl (.attempt k next)) :
    (Attempt.resume (s.scene k) stage answer).2 = some next ∧
      (((Process.attempt k stage).resume s answer).1.scene k).context = (s.scene k).context := by
  have evolves := Attempt.Scene.Evolves.resume (s.scene k) stage answer
  have context := Attempt.context_of_next (s.scene k) stage answer
  simp only [resume] at h ⊢
  split at h
  · next scene stage' goesOn =>
    cases h
    rw [goesOn] at evolves context
    exact ⟨by rw [goesOn], Session.context_scene_setScene evolves.owner (context next rfl)⟩
  · cases h

end Process

end Folio
