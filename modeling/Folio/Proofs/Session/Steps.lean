/-
# What a step of a process does

A step of a process that is no call of the manager does one of a few things to a context or to a
coordinator, if it does anything (`Process.Makes`).  A process of whatever kind goes on as one of
the same kind, or of the one that comes next (`Process.GoesOn`).

What is shown of every step is shown case by case of these.
-/
import Folio.Session.Process

namespace Folio

/-! ## 1. Operations on a context -/

/-- What is begun is begun on a live context. -/
theorem ContextOp.of_begin {op : ContextOp} {c : Context} {call : ContextCall}
    (h : op.begin c = .ok call) : c.isDisposed = false ∧ call = op.call c := by
  unfold begin Context.requireLive at h
  split at h
  · cases h
  · next live =>
    cases h
    exact ⟨Bool.eq_false_iff.mpr live, rfl⟩

/-- **Only a reload ever follows an operation.** -/
theorem ContextCall.exists_reverting_of_again {c d : Context} {call next : ContextCall}
    {reply : call.request.Reply} (h : ContextCall.resume c call reply = (d, .again next)) :
    ∃ path, next = .reverting path false := by
  cases call with
  | restoring path id =>
    cases reply with
    | error e => cases h
    | ok u =>
      simp only [ContextCall.resume] at h
      split at h
      · next begun =>
        cases h
        exact ⟨c.path, (ContextOp.of_begin begun).2⟩
      · cases h
  | _ => simp [ContextCall.resume, ContextCall.conclude] at h

namespace Process

variable {s : Session}

/-! ## 2. What is made of a session -/

/-- **What a process that is no call of the manager makes of a session.** -/
inductive Makes (s : Session) : Process → Session → Prop
  | nothing {p : Process} : Makes s p s
  | called (c : ContextId) (call : ContextCall) (reply : call.request.Reply) :
      Makes s (.calling c call)
        (s.setContext c (ContextCall.resume (s.context c) call reply).1)
  | loads (k : CoordinatorId) (call : ContextCall) (reply : call.request.Reply) :
      Makes s (.loading k call) (s.setContext (s.coordinator k).context
        (ContextCall.resume (s.context (s.coordinator k).context) call reply).1)
  | starts (k : CoordinatorId) (call : ContextCall) (reply : call.request.Reply) :
      Makes s (.loading k call) ((s.setContext (s.coordinator k).context
        (ContextCall.resume (s.context (s.coordinator k).context) call reply).1).startCoordinator k)
  | fires {k : CoordinatorId} {number place : Nat} {c : ContextId} {interval : Duration}
      (runs : (s.coordinator k).runs number = true) :
      Makes s (.ticking k number place c interval) (s.start (.attempt k))
  | reschedules {k : CoordinatorId} {number place : Nat} {c : ContextId} {interval : Duration}
      (runs : (s.coordinator k).runs number = true) :
      Makes s (.ticking k number place c interval)
        (s.setCoordinator k (s.coordinator k).takeReschedule)
  | ends {k : CoordinatorId} {number place : Nat} {c : ContextId} {interval : Duration}
      (runs : (s.coordinator k).runs number = true) :
      Makes s (.ticking k number place c interval) (s.setCoordinator k (s.coordinator k).endLoop)
  | acts (k : CoordinatorId) (a : Attempt) (answer : a.need.Answer) :
      Makes s (.attempt k a) (s.setScene k (Attempt.resume (s.scene k) a answer).1)

/-- **A step of an operation**, in a session. -/
theorem resume_calling (s : Session) (c : ContextId) (call : ContextCall)
    (reply : call.request.Reply) :
    (Process.calling c call).resume s reply =
      (s.setContext c (ContextCall.resume (s.context c) call reply).1,
        match (ContextCall.resume (s.context c) call reply).2 with
        | .again next => .inl (.calling c next)
        | .done result => .inr (.context result)) := by
  simp only [resume]
  split <;> (next same => rw [same])

/-- **A step of an attempt**, in a session. -/
theorem resume_attempt (s : Session) (k : CoordinatorId) (a : Attempt) (answer : a.need.Answer) :
    (Process.attempt k a).resume s answer =
      (s.setScene k (Attempt.resume (s.scene k) a answer).1,
        match (Attempt.resume (s.scene k) a answer).2 with
        | some next => .inl (.attempt k next)
        | none => .inr .silent) := by
  simp only [resume]
  split
  · next same => rw [same]
  · next same =>
    rw [same]
    rfl

/-- **Nothing else is made of it** in a step of such a process. -/
theorem makes (s : Session) (p : Process) (answer : p.need.Answer)
    (other : ∀ stage, p ≠ .manager stage) : Makes s p (p.resume s answer).1 := by
  cases p with
  | operation c op => simp only [resume]; split <;> exact .nothing
  | calling c call =>
    have called := Makes.called (s := s) c call answer
    simp only [resume]
    split <;> (next h => rw [h] at called; exact called)
  | load k isNew => simp only [resume]; split <;> exact .nothing
  | loading k call =>
    have loads := Makes.loads (s := s) k call answer
    have starts := Makes.starts (s := s) k call answer
    simp only [resume, resumeLoad]
    split
    · next h =>
      rw [h] at loads
      exact loads
    · next context result h =>
      rw [h] at loads starts
      cases result with
      | error e => exact loads
      | ok r =>
        simp only [finishLoad, finish]
        split
        · exact starts
        · exact loads
  | loop k number place => simp only [resume]; split <;> exact .nothing
  | ticking k number place c interval =>
    simp only [resume, resumeLoop]
    split
    · exact .nothing
    · next stopped =>
      have runs : (s.coordinator k).runs number = true := by simpa using stopped
      cases answer with
      | due => exact .fires runs
      | rescheduled => exact .reschedules runs
      | announced =>
        simp only
        split
        · exact .ends runs
        · exact .nothing
  | attempt k a =>
    have acts := Makes.acts (s := s) k a answer
    simp only [resume]
    split <;> (next h => rw [h] at acts; exact acts)
  | manager stage => exact absurd rfl (other stage)
  | awaitReady c => exact .nothing
  | pause millis => exact .nothing

/-! ## 3. How a process goes on -/

/-- **How a process goes on.** -/
inductive GoesOn (s : Session) : Process → Process → Prop
  | begins {c : ContextId} {op : ContextOp} {call : ContextCall}
      (begun : op.begin (s.context c) = .ok call) : GoesOn s (.operation c op) (.calling c call)
  | again {c : ContextId} {call next : ContextCall} {context : Context}
      {reply : call.request.Reply}
      (again : ContextCall.resume (s.context c) call reply = (context, .again next)) :
      GoesOn s (.calling c call) (.calling c next)
  | loads {k : CoordinatorId} {isNew : Bool} {call : ContextCall}
      (begun : (ContextOp.populate isNew).begin (s.context (s.coordinator k).context) = .ok call) :
      GoesOn s (.load k isNew) (.loading k call)
  | loadsAgain {k : CoordinatorId} {call next : ContextCall} {context : Context}
      {reply : call.request.Reply}
      (again : ContextCall.resume (s.context (s.coordinator k).context) call reply =
        (context, .again next)) : GoesOn s (.loading k call) (.loading k next)
  | sleeps {k : CoordinatorId} {number place : Nat} :
      GoesOn s (.loop k number place)
        (.ticking k number place (s.coordinator k).context (s.coordinator k).current)
  | wakes {k : CoordinatorId} {number before after : Nat} {c : ContextId} {interval : Duration} :
      GoesOn s (.ticking k number before c interval) (.loop k number after)
  | attempts {k : CoordinatorId} {a next : Attempt} {answer : a.need.Answer}
      (follows : (Attempt.resume (s.scene k) a answer).2 = some next) :
      GoesOn s (.attempt k a) (.attempt k next)
  | conducts {stage next : Stage} {answer : stage.need.Answer}
      (follows : (stage.resume s answer).2 = .inl next) : GoesOn s (.manager stage) (.manager next)

/-- **It goes on in no other way.** -/
theorem goesOn {p q : Process} {answer : p.need.Answer} (h : (p.resume s answer).2 = .inl q) :
    GoesOn s p q := by
  cases p with
  | operation c op =>
    simp only [resume] at h
    split at h
    · next begun =>
      cases h
      exact .begins begun
    · cases h
  | calling c call =>
    simp only [resume] at h
    split at h
    · next again =>
      cases h
      exact .again again
    · cases h
  | load k isNew =>
    simp only [resume] at h
    split at h
    · next begun =>
      cases h
      exact .loads begun
    · cases h
  | loading k call =>
    simp only [resume, resumeLoad] at h
    split at h
    · next again =>
      cases h
      exact .loadsAgain again
    · next result _ => cases result <;> cases h
  | loop k number place =>
    simp only [resume] at h
    split at h <;> cases h
    exact .sleeps
  | ticking k number place c interval =>
    simp only [resume, resumeLoop] at h
    split at h
    · cases h
    · cases answer with
      | due => cases h; exact .wakes
      | rescheduled => cases h; exact .wakes
      | announced =>
        simp only at h
        split at h <;> cases h
        exact .wakes
  | attempt k a =>
    simp only [resume] at h
    split at h
    · next follows =>
      cases h
      exact .attempts (congrArg Prod.snd follows)
    · cases h
  | manager stage =>
    simp only [resume] at h
    split at h
    · next follows =>
      cases h
      exact .conducts (congrArg Prod.snd follows)
    · cases h
  | awaitReady c => cases h
  | pause millis => cases h

end Process

end Folio
