/-
# What becomes of a context when an operation on it ends

An operation on a context runs by itself if the host calls it, as the first load or save of a
coordinator, or within an attempt to save.  In each case it ends with one step, and that step gives
its result (`Process.ended`).

Everything an operation does to its context it does in that step, and only if it succeeds: an
operation that fails, for whatever reason, leaves all contexts as they are, but for the first load
or save, which marks a context that is still loading as failed if it comes to its end
(`Process.spares_of_error`).
-/
import Folio.Proofs.Session.FirstLoads
import Folio.Proofs.Autosave.Steps

namespace Folio

/-! ## 1. Results of calls -/

/-- The result with which an operation is refused. -/
def ContextOp.refusal? (op : ContextOp) (c : Context) : Option ContextResult :=
  match op.begin c with
  | .ok _ => none
  | .error e => some (.error e)

/-- The result that an answer of the store leads to, if no other call follows. -/
def ContextCall.result? (c : Context) (call : ContextCall) (reply : call.request.Reply) :
    Option ContextResult :=
  match (resume c call reply).2 with
  | .again _ => none
  | .done result => some result

/-- Only a closed context refuses. -/
theorem ContextOp.of_refusal? {op : ContextOp} {c : Context} {result : ContextResult}
    (h : op.refusal? c = some result) : c.state = .disposed ∧ result = .error .disposed := by
  unfold refusal? begin Context.requireLive at h
  by_cases closed : c.isDisposed = true
  · rw [if_pos closed] at h
    cases h
    exact ⟨beq_iff_eq.mp closed, rfl⟩
  · rw [if_neg closed] at h
    cases h

/-- The first load or save that fails marks a context that is still loading; one that breaks off
does not. -/
theorem Context.settle_error (c : Context) (e : ContextError) :
    c.settle (.error e) =
      if c.state = .loading ∧ e.breaksOff = false then { c with state := .failed e.message }
      else c := by
  unfold settle
  cases phase : c.state <;> cases broken : e.breaksOff <;> simp [broken]

namespace ContextCall

variable {c : Context}

theorem conclude_error (first : Bool) {outcome : Context × Except ContextError Unit}
    {e : ContextError} (same : ∀ e, outcome.2 = .error e → outcome.1 = c)
    (h : (conclude first outcome).2 = .done (.error e)) :
    (conclude first outcome).1 = if first then c.settle (.error e) else c := by
  obtain ⟨context, result⟩ := outcome
  cases result with
  | ok u => cases h
  | error cause =>
    obtain rfl : cause = e := by simpa [conclude, Except.map] using h
    rw [conclude, same cause rfl]

/-- The result is that of the last call. -/
theorem result?_eq_some_iff {call : ContextCall} {reply : call.request.Reply}
    {result : ContextResult} :
    result? c call reply = some result ↔ (resume c call reply).2 = .done result := by
  unfold result?
  cases (resume c call reply).2 <;> simp

/-- **An operation that fails** has left the context as it was, unless it is the first load or
save. -/
theorem context_of_error {call : ContextCall} {reply : call.request.Reply} {e : ContextError}
    (h : result? c call reply = some (.error e)) :
    (resume c call reply).1 = if call.isFirst then c.settle (.error e) else c := by
  have fails := result?_eq_some_iff.mp h
  cases call with
  | saving path request first =>
    refine conclude_error first (fun cause refused => ?_) fails
    cases reply with
    | error e => rfl
    | ok m => cases refused
  | reverting path first =>
    exact conclude_error first (fun cause refused => Context.afterRevert_of_error refused) fails
  | «renaming» path target =>
    refine conclude_error false (fun cause refused => ?_) fails
    cases reply with
    | error e => rfl
    | ok m => cases refused
  | restoring path id =>
    cases reply with
    | error e => rfl
    | ok u =>
      simp only [resume, isFirst] at fails ⊢
      split <;> rfl
  | _ => rfl

/-- Where another call follows, nothing has been done yet. -/
theorem context_of_again {call next : ContextCall} {reply : call.request.Reply}
    (h : (resume c call reply).2 = .again next) : (resume c call reply).1 = c := by
  cases call with
  | restoring path id =>
    cases reply with
    | error e => rfl
    | ok u => simp only [resume]; split <;> rfl
  | _ => cases h

end ContextCall

/-! ## 2. Results of processes -/

namespace Process

/-- **The operation on a context that ends with a step of a process**, by its context and its
result.  An attempt looks at the file, reloads it and saves it by such operations. -/
def ended (s : Session) : (p : Process) → p.need.Answer → Option (ContextId × ContextResult)
  | .operation c op, () => (op.refusal? (s.context c)).map (c, ·)
  | .calling c call, reply => (call.result? (s.context c) reply).map (c, ·)
  | .load k isNew, () =>
    let c := (s.coordinator k).context
    ((ContextOp.populate isNew).refusal? (s.context c)).map (c, ·)
  | .loading k call, reply =>
    let c := (s.coordinator k).context
    (call.result? (s.context c) reply).map (c, ·)
  | .attempt k (.checking path), reply =>
    let c := (s.coordinator k).context
    (ContextCall.result? (s.context c) (.fetching path) reply).map (c, ·)
  | .attempt k (.reverting path), reply =>
    let c := (s.coordinator k).context
    (ContextCall.result? (s.context c) (.reverting path false) reply).map (c, ·)
  | .attempt k (.saving _ path request), reply =>
    let c := (s.coordinator k).context
    (ContextCall.result? (s.context c) (.saving path request false) reply).map (c, ·)
  | _, _ => none

/-- The process is the first load or save of a context. -/
def isFirst : Process → Bool
  | .operation _ op => op.isFirst
  | .calling _ call => call.isFirst
  | .load _ _ => true
  | .loading _ call => call.isFirst
  | _ => false

/-- The process is an attempt to save. -/
def isAttempt : Process → Bool
  | .attempt _ _ => true
  | _ => false

/-- The process operates on a context. -/
def operates : Process → Bool
  | .operation _ _ => true
  | .calling _ _ => true
  | .load _ _ => true
  | .loading _ _ => true
  | .attempt _ _ => true
  | _ => false

variable {s : Session} {p : Process}

/-- **Who waits for an operation is told the result** with which it has ended. -/
theorem ended_of_outcome {answer : p.need.Answer} {result : ContextResult}
    (h : (p.resume s answer).2 = .inr (.context result)) :
    ∃ c, p.ended s answer = some (c, result) := by
  cases p with
  | operation c op =>
    simp only [resume] at h
    split at h
    · cases h
    · next refused =>
      cases h
      exact ⟨c, by simp only [ended, ContextOp.refusal?, refused, Option.map_some]⟩
  | calling c call =>
    simp only [resume] at h
    split at h
    · cases h
    · next ends =>
      cases h
      exact ⟨c, by simp only [ended, ContextCall.result?, ends, Option.map_some]⟩
  | load k isNew => simp only [resume] at h; split at h <;> cases h
  | loading k call =>
    simp only [resume, resumeLoad] at h
    split at h
    · cases h
    · next result _ => cases result <;> cases h
  | loop k number place => simp only [resume] at h; split at h <;> cases h
  | ticking k number place c interval =>
    simp only [resume, resumeLoop] at h
    split at h
    · cases h
    · cases answer with
      | announced => simp only at h; split at h <;> cases h
      | _ => cases h
  | attempt k a => simp only [resume] at h; split at h <;> cases h
  | manager stage => simp only [resume] at h; split at h <;> cases h
  | awaitReady c => cases h
  | pause millis => cases h

end Process

/-! ## 3. What an operation leaves as it is -/

namespace Session

/-- A context that is put back where it was taken from. -/
theorem setContext_context (s : Session) (c : ContextId) : s.setContext c (s.context c) = s := by
  have same : s.contexts.set c (s.context c) = s.contexts := by
    rcases Nat.lt_or_ge c s.contexts.length with made | beyond
    · rw [Session.context, List.getElem?_eq_getElem made]
      exact List.set_getElem_self made
    · exact List.set_eq_of_length_le beyond
  rw [setContext, same]

/-- **What a failure makes of a session**: the first load or save of a context that is still loading
marks it as failed, unless it has broken off, and nothing else is done. -/
def afterFailure (s : Session) (first : Bool) (c : ContextId) (e : ContextError) : Session :=
  if first = true ∧ (s.context c).state = .loading ∧ e.breaksOff = false then
    s.setContext c { s.context c with state := .failed e.message }
  else s

theorem afterFailure_eq (s : Session) (first : Bool) (c : ContextId) (e : ContextError) :
    s.setContext c (if first then (s.context c).settle (.error e) else s.context c) =
      s.afterFailure first c e := by
  cases first with
  | false => exact s.setContext_context c
  | true =>
    rw [if_pos rfl, Context.settle_error, afterFailure]
    by_cases marks : (s.context c).state = .loading ∧ e.breaksOff = false
    · rw [if_pos marks, if_pos ⟨rfl, marks⟩]
    · rw [if_neg marks, if_neg fun h => marks h.2, s.setContext_context]

/-- A context that is closed is not marked. -/
theorem afterFailure_of_disposed {s : Session} {c : ContextId}
    (closed : (s.context c).state = .disposed) (first : Bool) (e : ContextError) :
    s.afterFailure first c e = s :=
  if_neg fun h => by cases closed.symm.trans h.2.1

end Session

namespace Process

variable {s : Session} {p : Process}

/-- **The step of a process leaves the contexts as they are**, and the whole session, unless the
process is an attempt, which has its coordinator beside its context. -/
structure Spares (p : Process) (s t : Session) : Prop where
  contexts : t.contexts = s.contexts
  session : p.isAttempt = false → t = s

theorem Spares.refl (p : Process) (s : Session) : p.Spares s s := ⟨rfl, fun _ => rfl⟩

/-- An attempt that puts back its context as it was. -/
theorem spares_attempt {k : CoordinatorId} {a : Attempt} {answer : a.need.Answer}
    (same : (Attempt.resume (s.scene k) a answer).1.context = (s.scene k).context) :
    (Process.attempt k a).Spares s ((Process.attempt k a).resume s answer).1 where
  contexts := by
    have put := congrArg Session.contexts (s.setContext_context (s.coordinator k).context)
    rw [resume_attempt, Session.setScene, same]
    exact put
  session := fun no => absurd no.symm Bool.false_ne_true

/-- A call of the store that has left the context as it was. -/
theorem spares_calling {c : ContextId} {call : ContextCall} {reply : call.request.Reply}
    (same : (ContextCall.resume (s.context c) call reply).1 = s.context c) :
    (Process.calling c call).Spares s ((Process.calling c call).resume s reply).1 := by
  rw [resume_calling, same, s.setContext_context]
  exact .refl _ s

/-- The step in which an operation is refused. -/
theorem spares_of_refusal {op : ContextOp} {c d : ContextId} {e : ContextError}
    (h : (op.refusal? (s.context d)).map (d, ·) = some (c, .error e)) (first : Bool) :
    s.afterFailure first c e = s := by
  obtain ⟨result, refuses, same⟩ := Option.map_eq_some_iff.mp h
  cases same
  exact Session.afterFailure_of_disposed (ContextOp.of_refusal? refuses).1 first e

/-- The step in which a call of the store fails. -/
theorem failure_of_result {call : ContextCall} {reply : call.request.Reply} {c d : ContextId}
    {e : ContextError}
    (h : (call.result? (s.context d) reply).map (d, ·) = some (c, .error e)) :
    d = c ∧ (ContextCall.resume (s.context d) call reply).2 = .done (.error e) ∧
      s.setContext d (ContextCall.resume (s.context d) call reply).1 =
        s.afterFailure call.isFirst d e := by
  obtain ⟨result, ends, same⟩ := Option.map_eq_some_iff.mp h
  cases same
  refine ⟨rfl, ContextCall.result?_eq_some_iff.mp ends, ?_⟩
  rw [ContextCall.context_of_error ends, s.afterFailure_eq]

/-- What it leaves of the context, if it is not the first load or save. -/
theorem context_of_failure (call : ContextCall) {reply : call.request.Reply} {c d : ContextId}
    {e : ContextError}
    (h : (call.result? (s.context d) reply).map (d, ·) = some (c, .error e))
    (later : call.isFirst = false) :
    (ContextCall.resume (s.context d) call reply).1 = s.context d := by
  obtain ⟨result, ends, same⟩ := Option.map_eq_some_iff.mp h
  cases same
  rw [ContextCall.context_of_error ends, later]
  rfl

/-- **An operation that fails leaves everything as it was**, but for the first load or save of a
context that is still loading. -/
theorem spares_of_error {answer : p.need.Answer} {c : ContextId} {e : ContextError}
    (h : p.ended s answer = some (c, .error e)) :
    p.Spares (s.afterFailure p.isFirst c e) (p.resume s answer).1 := by
  cases p with
  | operation d op =>
    rw [spares_of_refusal h]
    simp only [resume]
    split <;> exact .refl _ s
  | load k isNew =>
    rw [spares_of_refusal h]
    simp only [resume]
    split <;> exact .refl _ s
  | calling d call =>
    obtain ⟨rfl, -, same⟩ := failure_of_result h
    rw [resume_calling, same]
    exact .refl _ _
  | loading k call =>
    obtain ⟨rfl, done, same⟩ := failure_of_result h
    simp only [resume, resumeLoad]
    split
    · next again =>
      rw [again] at done
      cases done
    · next ends =>
      rw [ends] at done same
      cases done
      exact same ▸ .refl _ _
  | attempt k a =>
    have whole (d : ContextId) : s.afterFailure false d e = s :=
      if_neg fun h => Bool.false_ne_true h.1
    rw [show (Process.attempt k a).isFirst = false from rfl, whole]
    cases a with
    | checking path => exact spares_attempt (Attempt.context_resume_checking _ path answer)
    | reverting path =>
      exact spares_attempt (context_of_failure (.reverting path false) h rfl)
    | saving since path request =>
      have same := context_of_failure (.saving path request false) h rfl
      exact spares_attempt ((Attempt.context_afterSave _ since answer).trans same)
    | due => cases h
    | asking prompt => cases h
  | _ => cases h

/-- **A step that ends no operation leaves everything as it was.** -/
theorem spares_of_unended (operates : p.operates = true) {answer : p.need.Answer}
    (h : p.ended s answer = none) : p.Spares s (p.resume s answer).1 := by
  have again (call : ContextCall) {reply : call.request.Reply} {d : ContextId}
      (h : (call.result? (s.context d) reply).map (d, ·) = none) :
      ∃ next, (ContextCall.resume (s.context d) call reply).2 = .again next := by
    unfold ContextCall.result? at h
    split at h
    · next next follows => exact ⟨next, follows⟩
    · cases h
  cases p with
  | operation c op => simp only [resume]; split <;> exact .refl _ s
  | load k isNew => simp only [resume]; split <;> exact .refl _ s
  | calling c call =>
    obtain ⟨next, follows⟩ := again call h
    exact spares_calling (ContextCall.context_of_again follows)
  | loading k call =>
    obtain ⟨next, follows⟩ := again call h
    have same := ContextCall.context_of_again follows
    simp only [resume, resumeLoad]
    split
    · next goesOn =>
      simp only [goesOn] at same
      rw [same, s.setContext_context]
      exact .refl _ s
    · next ends =>
      rw [ends] at follows
      cases follows
  | attempt k a =>
    cases a with
    | due => exact spares_attempt (Attempt.context_resume_due _)
    | checking path => exact spares_attempt (Attempt.context_resume_checking _ path answer)
    | asking prompt => exact spares_attempt (Attempt.context_resume_asking _ prompt answer)
    | reverting path =>
      obtain ⟨next, follows⟩ := again (.reverting path false) h
      cases follows
    | saving since path request =>
      obtain ⟨next, follows⟩ := again (.saving path request false) h
      cases follows
  | _ => cases operates

/-- **An operation that goes on has done nothing yet.** -/
theorem spares_of_goesOn {answer : p.need.Answer} {q : Process} (operates : q.operates = true)
    (h : (p.resume s answer).2 = .inl q) :
    p.operates = true ∧ p.Spares s (p.resume s answer).1 := by
  cases p with
  | operation c op => exact ⟨rfl, by simp only [resume]; split <;> exact .refl _ s⟩
  | load k isNew => exact ⟨rfl, by simp only [resume]; split <;> exact .refl _ s⟩
  | calling c call =>
    rw [resume_calling] at h
    refine ⟨rfl, spares_calling ?_⟩
    cases step : (ContextCall.resume (s.context c) call answer).2 with
    | again next => exact ContextCall.context_of_again step
    | done result =>
      rw [step] at h
      cases h
  | loading k call =>
    refine ⟨rfl, ?_⟩
    simp only [resume, resumeLoad] at h ⊢
    split at h
    · next again =>
      have same := ContextCall.context_of_again (congrArg Prod.snd again)
      simp only [again] at same
      rw [same, s.setContext_context]
      exact .refl _ s
    · next result _ => cases result <;> cases h
  | attempt k a =>
    refine ⟨rfl, spares_attempt ?_⟩
    rw [resume_attempt] at h
    cases follows : (Attempt.resume (s.scene k) a answer).2 with
    | none =>
      rw [follows] at h
      cases h
    | some next => exact Attempt.context_of_next (s.scene k) a answer next follows
  | loop | ticking | manager | awaitReady | pause => cases goesOn h <;> cases operates

/-- Only an operation on a context ends with a result of one. -/
theorem operates_of_ended {answer : p.need.Answer} {r : ContextId × ContextResult}
    (h : p.ended s answer = some r) : p.operates = true := by
  cases p with
  | loop | ticking | manager | awaitReady | pause => cases h
  | _ => rfl

end Process

end Folio
