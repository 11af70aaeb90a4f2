/-
# Where a save comes from

A save goes to the path that its context had when the save was begun, and brings the content that
the model had then, however late the store carries it out.  It was begun by a step of the same
process, which found the context live and at that path.

So once no live context is at a path, the store may still carry out saves of it, but only such as
were begun before (`Traffic.begun_of_carried`).
-/
import Folio.Proofs.Autosave.Steps
import Folio.Proofs.Manager.Paths
import Folio.Proofs.Traffic.Course

namespace Folio

/-- The context is live and at a path. -/
structure Session.IsLiveAt (s : Session) (path : String) (c : ContextId) : Prop where
  live : (s.context c).isDisposed = false
  path : (s.context c).path = path

/-- A save that an operation begins is of its context. -/
theorem ContextOp.save_of_call {op : ContextOp} {c : Context} {path : String}
    {request : SaveRequest} (h : (op.call c).request = .save path request) :
    c.path = path ∧ c.saveRequest = request := by
  cases op with
  | populate isNew =>
    cases isNew <;> cases h
    exact ⟨rfl, rfl⟩
  | save =>
    cases h
    exact ⟨rfl, rfl⟩
  | _ => cases h

/-- An attempt begins a save of its context, and that is live. -/
theorem Attempt.save_of_resume {s : Scene} {a next : Attempt} {answer : a.need.Answer}
    {path : String} {request : SaveRequest} (h : (Attempt.resume s a answer).2 = some next)
    (saves : next.need = .store (.save path request)) :
    s.context.isDisposed = false ∧ s.context.path = path ∧ s.context.saveRequest = request := by
  have live_of_beginSave {s : Scene} {next : Attempt} (h : (beginSave s).2 = some next) :
      s.context.isDisposed = false := by
    unfold beginSave at h
    split at h
    · next may => simpa using (Bool.and_eq_true_iff.mp may).2
    · cases h
  obtain ⟨_, rfl⟩ | ⟨_, rfl⟩ | rfl | rfl := next_resume s a answer next h
  · cases saves
  · cases saves
  · cases saves
  · refine ⟨?_, by cases saves; exact ⟨rfl, rfl⟩⟩
    cases a with
    | due => cases next_due h
    | checking place =>
      simp only [Attempt.resume, afterCheck] at h
      split at h
      · exact live_of_beginSave h
      · split at h
        · exact live_of_beginSave h
        · split at h <;> cases h
    | asking prompt =>
      cases answer with
      | cancel => cases h
      | revert =>
        simp only [Attempt.resume, afterAnswer] at h
        split at h <;> cases h
      | overwrite =>
        have live :=
          live_of_beginSave (s := { s with coordinator := s.coordinator.closeConflict }) h
        exact live
    | reverting place => cases h
    | saving since place request => cases h

/-- **Whoever begins a save** finds the context live, at the path of the save. -/
theorem Process.save_of_resume {s : Session} {p q : Process} {answer : p.need.Answer}
    {path : String} {request : SaveRequest} (h : (p.resume s answer).2 = .inl q)
    (saves : q.need = .store (.save path request)) :
    ∃ c, s.IsLiveAt path c ∧ (s.context c).saveRequest = request := by
  cases goesOn h with
  | @begins c op call begun =>
    obtain ⟨live, rfl⟩ := ContextOp.of_begin begun
    obtain ⟨there, same⟩ := ContextOp.save_of_call (Need.store.inj saves)
    exact ⟨c, ⟨live, there⟩, same⟩
  | again again =>
    obtain ⟨place, rfl⟩ := ContextCall.exists_reverting_of_again again
    cases saves
  | loads begun =>
    obtain ⟨live, rfl⟩ := ContextOp.of_begin begun
    obtain ⟨there, same⟩ := ContextOp.save_of_call (Need.store.inj saves)
    exact ⟨_, ⟨live, there⟩, same⟩
  | loadsAgain again =>
    obtain ⟨place, rfl⟩ := ContextCall.exists_reverting_of_again again
    cases saves
  | attempts follows =>
    obtain ⟨live, there, same⟩ := Attempt.save_of_resume follows saves
    exact ⟨_, ⟨live, there⟩, same⟩
  | @conducts stage next given follows => cases next <;> cases saves
  | sleeps => cases saves
  | wakes => cases saves

/-- **A save that is carried out late was begun in time**: if no step since then has found a live
context at the path, the save was begun before, of a context that was there. -/
theorem Traffic.begun_of_carried {session : Session} {store : MemoryStore} {moves : List Move}
    {path : String} {a b : List Event} (log : ((start session store).run moves).log = a ++ b)
    (deserted : ∀ n p answer s, .stepped n p answer s ∈ b → ∀ c, ¬ s.IsLiveAt path c) {n : Nat}
    {request : SaveRequest} {reply : Except StoreError Metadata}
    (late : .carried n (.store (.save path request)) reply ∈ b) :
    ∃ p answer s c, .stepped n p answer s ∈ a ∧ s.IsLiveAt path c ∧
      (s.context c).saveRequest = request := by
  obtain ⟨during, rest, rfl⟩ := List.append_of_mem late
  rw [← List.append_assoc] at log
  obtain ⟨p, waits, course⟩ := course_of_carried log
  rcases course.begun _ rfl with fresh | ⟨p', answer, s, stepped, next⟩
  · have exchanges := Process.isExchange_of_isFresh fresh
    rw [waits] at exchanges
    cases exchanges
  · obtain ⟨c, there, same⟩ := Process.save_of_resume next waits
    rcases List.mem_append.mp (List.mem_of_mem_filter stepped) with before | since
    · exact ⟨p', answer, s, c, before, there, same⟩
    · exact absurd there (deserted n p' answer s (List.mem_append_left _ since) c)

end Folio
