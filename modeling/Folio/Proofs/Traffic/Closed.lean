/-
# Closed contexts

A context that is closed stays closed.  Nothing is begun on it any more: every operation looks
first whether its context is live, and so does an attempt before it reloads or saves.

But a save, a reload or a move that waits for the store when the context is closed does not look
again when the store replies.  If it succeeds, the closed context still gets new metadata, a path, a
model, and announces them (`Traffic.closed_context_changes`).  Nothing else ever changes a closed
context, unless the host itself sets its model or lets it follow a move
(`Traffic.unchanged_once_closed`): what changes it was in flight when it was closed, and each such
call changes it once.
-/
import Folio.Proofs.Session.Contexts
import Folio.Proofs.Traffic.Failures
import Folio.Proofs.Traffic.Saves

namespace Folio

/-! ## 1. Calls whose success changes a context -/

/-- **A context is changed by what is waited for**, if it is had: a document is saved, loaded or
moved. -/
def Need.altersContext : Need → Bool
  | .store (.save _ _) => true
  | .store (.get _ true) => true
  | .store (.rename _ _) => true
  | _ => false

/-- What has not begun waits for nothing of the kind. -/
theorem Process.not_altersContext_of_isFresh {p : Process} (fresh : p.isFresh = true) :
    p.need.altersContext = false := by
  cases p with
  | attempt k a =>
    cases a with
    | due => rfl
    | _ => cases fresh
  | manager stage =>
    cases stage with
    | called op => rfl
    | _ => cases fresh
  | calling | loading | ticking => cases fresh
  | _ => rfl

namespace ContextCall

/-- The other calls leave the context as it is. -/
theorem context_resume_of_not_alters (c : Context) : (call : ContextCall) →
    (reply : call.request.Reply) → (Need.store call.request).altersContext = false →
    (resume c call reply).1 = c
  | .fetching _, _, _ => rfl
  | .checkpointing _, _, _ => rfl
  | .listing _, _, _ => rfl
  | .restoring _ _, .error _, _ => rfl
  | .restoring _ _, .ok (), _ => by
    simp only [resume]
    split <;> rfl

/-- Those that change it end their operation, and say no more than whether it has succeeded. -/
theorem done_of_alters (c : Context) {call : ContextCall} (reply : call.request.Reply)
    (alters : (Need.store call.request).altersContext = true) :
    ∃ result : Except ContextError Unit,
      (resume c call reply).2 = .done (result.map fun () => .done) := by
  cases call with
  | saving path request first => exact ⟨_, rfl⟩
  | reverting path first => exact ⟨_, rfl⟩
  | «renaming» path target => exact ⟨_, rfl⟩
  | _ => cases alters

/-- What follows an operation is begun on a live context. -/
theorem live_of_again {c : Context} {call next : ContextCall} {reply : call.request.Reply}
    (h : (resume c call reply).2 = .again next) : c.isDisposed = false := by
  cases call with
  | restoring path id =>
    cases reply with
    | error e => cases h
    | ok u =>
      simp only [resume] at h
      split at h
      · next begun => exact (ContextOp.of_begin begun).1
      · cases h
  | _ => cases h

end ContextCall

/-- An attempt that neither reloads nor saves leaves the context as it is. -/
theorem Attempt.context_resume_of_not_alters (s : Scene) :
    (a : Attempt) → (answer : a.need.Answer) → a.need.altersContext = false →
      (Attempt.resume s a answer).1.context = s.context
  | .due, (), _ => context_resume_due s
  | .checking path, reply, _ => context_resume_checking s path reply
  | .asking prompt, answer, _ => context_resume_asking s prompt answer

/-- **An attempt looks whether its context is live** before it reloads or saves. -/
theorem Attempt.live_of_alters {s : Scene} {a next : Attempt} {answer : a.need.Answer}
    (follows : (Attempt.resume s a answer).2 = some next)
    (alters : next.need.altersContext = true) : s.context.isDisposed = false := by
  cases next with
  | saving since path request => exact (save_of_resume follows rfl).1
  | reverting path =>
    cases a with
    | asking prompt =>
      cases answer with
      | revert =>
        simp only [Attempt.resume, afterAnswer] at follows
        split at follows
        · cases follows
        · next live => exact Bool.eq_false_iff.mpr live
      | overwrite => rcases next_asking follows with ⟨no, -⟩ | ⟨-, no⟩ <;> cases no
      | cancel => cases follows
    | due => cases next_due follows
    | checking place => rcases next_checking follows with ⟨no, -⟩ | ⟨file, -, no⟩ <;> cases no
    | reverting place => cases follows
    | saving since place request => cases follows
  | _ => cases alters

namespace Process

variable {s : Session} {c : ContextId} {p : Process}

/-- **The process waits for a call whose success changes a context.** -/
def awaitsChange (s : Session) (c : ContextId) (p : Process) : Bool :=
  p.dealsWith s c && p.need.altersContext

/-- **Nothing of the kind is begun on a closed context.** -/
theorem live_of_awaitsChange {q : Process} {answer : p.need.Answer}
    (h : (p.resume s answer).2 = .inl q) (awaits : q.awaitsChange s c = true) :
    (s.context c).isDisposed = false := by
  obtain ⟨deals, alters⟩ := Bool.and_eq_true_iff.mp awaits
  cases goesOn h with
  | begins begun =>
    obtain rfl := beq_iff_eq.mp deals
    exact (ContextOp.of_begin begun).1
  | again again =>
    obtain rfl := beq_iff_eq.mp deals
    exact ContextCall.live_of_again (congrArg Prod.snd again)
  | loads begun =>
    obtain rfl := beq_iff_eq.mp deals
    exact (ContextOp.of_begin begun).1
  | loadsAgain again =>
    obtain rfl := beq_iff_eq.mp deals
    exact ContextCall.live_of_again (congrArg Prod.snd again)
  | attempts follows =>
    obtain rfl := beq_iff_eq.mp deals
    exact Attempt.live_of_alters follows alters
  | sleeps => cases deals
  | wakes => cases deals
  | conducts => cases deals

/-- **Such a call ends its operation**, and the process does not go on. -/
theorem ends_of_awaitsChange (awaits : p.awaitsChange s c = true) (answer : p.need.Answer) :
    (∃ result : Except ContextError Unit,
      p.ended s answer = some (c, result.map fun () => .done)) ∧
      ∃ outcome, (p.resume s answer).2 = .inr outcome := by
  obtain ⟨deals, alters⟩ := Bool.and_eq_true_iff.mp awaits
  have ends (call : ContextCall) (reply : call.request.Reply) (d : ContextId)
      (alters : (Need.store call.request).altersContext = true) :
      ∃ result : Except ContextError Unit,
        (call.result? (s.context d) reply).map (d, ·) = some (d, result.map fun () => .done) := by
    obtain ⟨result, done⟩ := ContextCall.done_of_alters (s.context d) reply alters
    exact ⟨result, by rw [ContextCall.result?_eq_some_iff.mpr done, Option.map_some]⟩
  cases p with
  | calling d call =>
    obtain rfl := beq_iff_eq.mp deals
    obtain ⟨result, done⟩ := ContextCall.done_of_alters (s.context d) answer alters
    exact ⟨ends call answer d alters, _, by rw [resume_calling, done]⟩
  | loading k call =>
    obtain rfl := beq_iff_eq.mp deals
    obtain ⟨result, done⟩ := ContextCall.done_of_alters (s.context _) answer alters
    refine ⟨ends call answer _ alters, ?_⟩
    simp only [resume, resumeLoad]
    split
    · next again =>
      rw [again] at done
      cases done
    · next result _ => cases result <;> exact ⟨_, rfl⟩
  | attempt k a =>
    obtain rfl := beq_iff_eq.mp deals
    cases a with
    | reverting path =>
      exact ⟨ends (.reverting path false) answer _ rfl, _, by rw [resume_attempt]; rfl⟩
    | saving since path request =>
      exact ⟨ends (.saving path request false) answer _ rfl, _, by rw [resume_attempt]; rfl⟩
    | _ => cases alters
  | operation => cases alters
  | load => cases alters
  | _ => cases deals

/-- **A call that fails leaves a closed context as it is.** -/
theorem context_of_error (closed : (s.context c).isDisposed = true) {answer : p.need.Answer}
    {e : ContextError} (fails : p.ended s answer = some (c, .error e)) :
    (p.resume s answer).1.context c = s.context c := by
  have same := (spares_of_error fails).contexts
  rw [Session.afterFailure_of_disposed (beq_iff_eq.mp closed)] at same
  rw [Session.context, same, Session.context]

/-- **No other step changes a closed context**: not the manager's, which lets only live contexts
follow a move, nor that of another process. -/
theorem context_of_disposed (made : c < s.contexts.length)
    (closed : (s.context c).isDisposed = true) (awaits : p.awaitsChange s c = false)
    (answer : p.need.Answer) : (p.resume s answer).1.context c = s.context c := by
  have put {t : Session} {d : ContextId} {context : Context} (h : c < t.contexts.length)
      (same : d = c → context = t.context c) :
      (t.setContext d context).context c = t.context c := by
    by_cases here : d = c
    · subst here
      rw [Session.context_setContext context h, same rfl]
    · exact Session.context_setContext_of_ne context (Ne.symm here)
  have light {d : ContextId} {call : ContextCall} (reply : call.request.Reply)
      (other : ((d == c) && (Need.store call.request).altersContext) = false) (here : d = c) :
      (ContextCall.resume (s.context d) call reply).1 = s.context c := by
    subst here
    refine ContextCall.context_resume_of_not_alters _ call reply ?_
    simpa using other
  refine (Process.keeps (P := fun t => c < t.contexts.length ∧ t.context c = s.context c) ?_ ?_
    ⟨made, rfl⟩ answer).2
  · rintro t u edit ⟨made, same⟩
    refine ⟨Nat.lt_of_lt_of_le made (Session.ChangesContexts.edit edit).length, Eq.trans ?_ same⟩
    cases edit with
    | newTracked path factory isNew =>
      exact Session.context_newTracked_of_lt path factory isNew made
    | followMove d target live =>
      refine put made fun here => ?_
      subst here
      rw [same, closed] at live
      cases live
    | dispose d =>
      refine put made fun here => ?_
      subst here
      rw [Context.dispose, same, if_pos closed]
    | startCoordinator k => rw [Session.context_startCoordinator]
    | retireWidget w => cases w <;> rfl
    | _ => rfl
  · intro t makes
    have length {d : ContextId} (context : Context) :
        c < (s.setContext d context).contexts.length := by
      simpa [Session.setContext] using made
    cases makes with
    | called d call reply => exact ⟨length _, put made (light reply awaits)⟩
    | loads k call reply => exact ⟨length _, put made (light reply awaits)⟩
    | starts k call reply =>
      rw [Session.contexts_startCoordinator, Session.context_startCoordinator]
      exact ⟨length _, put made (light reply awaits)⟩
    | acts k a given =>
      refine ⟨length _, put made fun here => ?_⟩
      subst here
      refine Attempt.context_resume_of_not_alters _ a given ?_
      simpa [awaitsChange, dealsWith] using awaits
    | _ => exact ⟨made, rfl⟩

end Process

/-! ## 2. What the host does -/

/-- The move is none of the host's by which it sets the model of a context or lets it follow a
move. -/
def Traffic.Move.sparesContext (c : ContextId) : Traffic.Move → Bool
  | .deed (.setModel d _) => d != c
  | .deed (.followMove d _) => d != c
  | _ => true

/-- **All else that the host does leaves a closed context as it is.** -/
theorem Deed.context_of_disposed {s : Session} {c : ContextId} (made : c < s.contexts.length)
    (closed : (s.context c).isDisposed = true) {d : Deed}
    (spares : (Traffic.Move.deed d).sparesContext c = true) :
    (d.apply s).context c = s.context c := by
  cases d with
  | setModel d model =>
    exact Session.context_setContext_of_ne _ (Ne.symm (bne_iff_ne.mp spares))
  | followMove d target =>
    exact Session.context_setContext_of_ne _ (Ne.symm (bne_iff_ne.mp spares))
  | disposeContext d =>
    by_cases here : d = c
    · subst here
      rw [Deed.apply, Session.context_setContext _ made, Context.dispose, if_pos closed]
    · exact Session.context_setContext_of_ne _ (Ne.symm here)
  | disposeWidget w => cases w <;> rfl
  | newContext path modelFactory contentType kind => exact Session.context_addContext_of_lt _ made
  | startCoordinator k => exact Session.context_startCoordinator s k c
  | _ => rfl

/-! ## 3. Runs -/

namespace Traffic

/-- **A context is closed**, and all that may still change it was in flight before. -/
structure Sealed (x : Traffic) (c : ContextId) (y : Traffic) : Prop where
  made : c < y.session.contexts.length
  closed : (y.session.context c).isDisposed = true
  late : ∀ t ∈ y.errands, t.process.awaitsChange y.session c = true →
    ∃ u ∈ x.errands, u.number = t.number ∧ u.process = t.process ∧
      u.process.awaitsChange x.session c = true

namespace Sealed

variable {x y : Traffic} {c : ContextId}

/-- **What a move does to the context**: nothing, unless a call that was in flight ends with it. -/
theorem context_step (h : Sealed x c y) {m : Move} (spares : m.sparesContext c = true) :
    (y.step m).session.context c = y.session.context c ∨
      ∃ t others answer, y.errands.Perm (t :: others) ∧ y.step m = y.resumed others t answer ∧
        t.process.awaitsChange y.session c = true := by
  obtain ⟨e, does⟩ := y.step_does m
  generalize y.step m = z at does ⊢
  cases does with
  | deed d => exact .inl (Deed.context_of_disposed h.made h.closed spares)
  | @goes i oracle before after t answer split =>
    cases awaits : t.process.awaitsChange y.session c with
    | false => exact .inl (Process.context_of_disposed h.made h.closed awaits answer)
    | true => exact .inr ⟨t, _, answer, perm_of_split split, rfl, awaits⟩
  | _ => exact .inl rfl

/-- **A move keeps it so.** -/
theorem step (h : Sealed x c y) (sound : y.IsSound) (m : Move) : Sealed x c (y.step m) where
  made := Nat.lt_of_lt_of_le h.made (y.advances_step m).contexts_length
  closed := ((y.advances_step m).context c h.made).disposed h.closed
  late t ht awaits := by
    obtain ⟨deals, alters⟩ := Bool.and_eq_true_iff.mp awaits
    rcases y.stood_or_led m ht with
      ⟨u, hu, number, same⟩ | fresh | ⟨u, others, answer, all, -, -, led⟩
    · have dealt := (sound.errands u hu).dealsWith_advances (y.advances_step m) c
      have awaited : u.process.awaitsChange y.session c = true := by
        rw [Process.awaitsChange, ← dealt, same, deals, alters]
        rfl
      rw [← number, ← same]
      exact h.late u hu awaited
    · rw [Process.not_altersContext_of_isFresh fresh] at alters
      cases alters
    · obtain ⟨made, -⟩ := (sound.errands u (all.mem_iff.mpr List.mem_cons_self)).continues led
      rw [made.dealsWith_advances (y.advances_step m) c] at deals
      have awaited : t.process.awaitsChange y.session c = true := by
        rw [Process.awaitsChange, deals, alters]
        rfl
      have live := Process.live_of_awaitsChange led awaited
      rw [h.closed] at live
      cases live

/-- **And so does a run.** -/
theorem run (h : Sealed x c x) (sound : x.IsSound) (moves : List Move) :
    Sealed x c (x.run moves) ∧ (x.run moves).IsSound := by
  induction moves using List.reverseRecOn with
  | nil => exact ⟨h, sound⟩
  | append_singleton moves m ih =>
    rw [run_concat]
    exact ⟨ih.1.step ih.2 m, ih.2.step m⟩

end Sealed

/-- **A closed context is closed for good.**  In every run, once a context is closed it stays
closed.  If no save, reload or move of it waits for the store then, it is never changed again in any
way: its path, its metadata, its model and what it has announced stay as they are.  And whatever is
in flight, each later change of it is the successful end of such a call, which was waiting when the
context was closed and is over with that.  Only what the host does by itself is not in this: that it
sets the model, or lets the context follow a move. -/
theorem unchanged_once_closed (config : Settings) (store : MemoryStore) (before after : List Move)
    (c : ContextId) (made : c < ((start (.create config) store).run before).session.contexts.length)
    (closed : (((start (.create config) store).run before).session.context c).isDisposed = true)
    (spares : ∀ m ∈ after, m.sparesContext c = true) :
    let x := (start (.create config) store).run before
    let y := x.run after
    (y.session.context c).isDisposed = true ∧
      ((∀ t ∈ x.errands, t.process.awaitsChange x.session c = false) →
        y.session.context c = x.session.context c) ∧
      ∀ first m rest, after = first ++ m :: rest →
        let u := x.run first
        (u.step m).session.context c ≠ u.session.context c →
        ∃ t ∈ x.errands, t.process.awaitsChange x.session c = true ∧
          ∃ answer outcome,
            (u.step m).log = u.log ++ [.stepped t.number t.process answer u.session] ∧
            t.process.ended u.session answer = some (c, .ok .done) ∧
            (t.process.resume u.session answer).2 = .inr outcome := by
  intro x y
  have shut : Sealed x c x := ⟨made, closed, fun t ht awaits => ⟨t, ht, rfl, rfl, awaits⟩⟩
  have sound : x.IsSound := sound_run config store before
  have late {first : List Move} {m : Move} {rest : List Move} (split : after = first ++ m :: rest)
      (changed : ((x.run first).step m).session.context c ≠ (x.run first).session.context c) :
      ∃ t others answer, (x.run first).errands.Perm (t :: others) ∧
        (x.run first).step m = (x.run first).resumed others t answer ∧
        t.process.awaitsChange (x.run first).session c = true := by
    have m_spares := spares m (split ▸ List.mem_append_right _ List.mem_cons_self)
    exact ((shut.run sound first).1.context_step m_spares).resolve_left changed
  refine ⟨(shut.run sound after).1.closed, fun idle => ?_, ?_⟩
  · -- nothing changes it at any move, since what would have to be in flight is not
    suffices ∀ first rest, after = first ++ rest →
        (x.run first).session.context c = x.session.context c from
      this after [] (List.append_nil after).symm
    intro first
    induction first using List.reverseRecOn with
    | nil => exact fun _ _ => rfl
    | append_singleton first m ih =>
      intro rest split
      have split' : after = first ++ m :: rest := by simpa using split
      rw [run_concat, ← ih (m :: rest) split']
      by_contra changed
      obtain ⟨t, others, answer, all, -, awaits⟩ := late split' changed
      obtain ⟨v, hv, -, -, awaited⟩ :=
        (shut.run sound first).1.late t (all.mem_iff.mpr List.mem_cons_self) awaits
      rw [idle v hv] at awaited
      cases awaited
  · intro first m rest split u changed
    obtain ⟨t, others, answer, all, stepped, awaits⟩ := late split changed
    have h := (shut.run sound first).1
    obtain ⟨v, hv, number, same, awaited⟩ :=
      h.late t (all.mem_iff.mpr List.mem_cons_self) awaits
    obtain ⟨number', process, reply⟩ := t
    obtain ⟨_, _, reply'⟩ := v
    simp only at number same
    subst number same
    obtain ⟨⟨result, ended⟩, outcome, stops⟩ := Process.ends_of_awaitsChange awaits answer
    refine ⟨_, hv, awaited, answer, outcome, by rw [stepped]; rfl, ?_, stops⟩
    cases result with
    | ok done => exact ended
    | error e =>
      refine absurd ?_ changed
      rw [stepped]
      exact Process.context_of_error h.closed ended

/-- A text is loaded and edited. -/
def loadsAndEdits : List Move :=
  [.deed (.newContext "a" "text" "file" .text), .enter (.operation 0 (.populate false))] ++
    goes 0 1 ++ .carryOut 0 :: goes 0 1 ++ [.deed (.setModel 0 ⟨.text "mine", true, false⟩)]

/-- It is closed while an operation on it waits for the store. -/
def closesDuring (op : ContextOp) : List Move :=
  loadsAndEdits ++ .enter (.operation 0 op) :: goes 0 1 ++ [.deed (.disposeContext 0)]

/-- The store replies. -/
def repliesLate : List Move := .carryOut 0 :: goes 0 1

/-- The text is to be reloaded, and others write the file. -/
def asksInVain : List Move :=
  .enter (.operation 0 .revert) :: goes 1 1 ++ [.others (checkpointed.write "a" (.text "two")).1]

/-- A reload is refused, and the save that was in flight changes the context; after that nothing
does. -/
theorem unchanged_once_closed_savesLate :
    let x := (start (.create {}) checkpointed).run (closesDuring .save)
    let u := x.run asksInVain
    let y := x.run (asksInVain ++ repliesLate)
    (0 < x.session.contexts.length ∧ (x.session.context 0).isDisposed = true ∧
        ∀ m ∈ asksInVain ++ repliesLate ++ asksInVain, m.sparesContext 0 = true) ∧
      (u.session.context 0).remote = some ⟨1, 3⟩ ∧ (y.session.context 0).remote = some ⟨3, 4⟩ ∧
      (∃ t ∈ x.errands, t.process.awaitsChange x.session 0 = true) ∧
      (y.run asksInVain).session.context 0 = y.session.context 0 := by
  intro x u y
  have spares : ∀ m ∈ asksInVain ++ repliesLate ++ asksInVain, m.sparesContext 0 = true := by
    decide +kernel
  have before : (u.session.context 0).remote = some ⟨1, 3⟩ := by decide +kernel
  have after : (y.session.context 0).remote = some ⟨3, 4⟩ := by decide +kernel
  obtain ⟨-, -, changes⟩ := unchanged_once_closed {} checkpointed (closesDuring .save)
    (asksInVain ++ repliesLate) 0 (by decide +kernel) (by decide +kernel) fun m hm =>
      spares m (List.mem_append_left _ hm)
  obtain ⟨t, ht, awaits, -⟩ := changes (asksInVain ++ [.carryOut 0]) (.go 0 .obliging) [] rfl
    fun same => absurd (congrArg Context.remote same) (by decide +kernel)
  obtain ⟨-, stays, -⟩ := unchanged_once_closed {} checkpointed
    (closesDuring .save ++ (asksInVain ++ repliesLate)) asksInVain 0 (by decide +kernel)
    (by decide +kernel) fun m hm => spares m (List.mem_append_right _ hm)
  refine ⟨⟨by decide +kernel, by decide +kernel, spares⟩, before, after, ⟨t, ht, awaits⟩, ?_⟩
  have idle : ∀ t ∈ y.errands, t.process.awaitsChange y.session 0 = false := by
    have none : y.errands.any (fun t => t.process.awaitsChange y.session 0) = false := by
      decide +kernel
    simpa using none
  rw [show y = (start (.create {}) checkpointed).run _ from (run_append _ _ _).symm] at idle ⊢
  exact stays idle

/-- What whoever follows a context sees of it. -/
def shown (moves : List Move) : List Announcement × String × Option Metadata × Model :=
  let c := ((start (.create {}) checkpointed).run moves).session.context 0
  (c.announced, c.path, c.remote, c.model)

/-- A context is closed during its first load. -/
def closesLoading : List Move :=
  [.deed (.newContext "a" "text" "file" .text), .enter (.operation 0 (.populate false))] ++
    goes 0 1 ++ [.deed (.disposeContext 0)]

/-- **A closed context is not closed for good**: a save, a reload, a move or the first load is in
flight when it is closed.  After it has announced that, it announces new metadata and a new path,
and its model is changed. -/
theorem closed_context_changes :
    let closed (more : List Announcement) := [.fileChanged ⟨1, 3⟩, .ready, .disposed] ++ more
    (∀ op ∈ [.save, .revert, .rename "b"], shown (closesDuring op) =
        (closed [], "a", some ⟨1, 3⟩, ⟨.text "mine", true, false⟩)) ∧
      shown (closesDuring .save ++ repliesLate) =
        (closed [.saved ⟨2, 4⟩, .fileChanged ⟨2, 4⟩], "a", some ⟨2, 4⟩,
          ⟨.text "mine", false, false⟩) ∧
      shown (closesDuring .revert ++ repliesLate) =
        (closed [.fileChanged ⟨1, 3⟩], "a", some ⟨1, 3⟩, ⟨.text "one", false, false⟩) ∧
      shown (closesDuring (.rename "b") ++ repliesLate) =
        (closed [.pathChanged "b", .fileChanged ⟨1, 3⟩], "b", some ⟨1, 3⟩,
          ⟨.text "mine", true, false⟩) ∧
      shown closesLoading = ([.disposed], "a", none, ⟨.text "", false, false⟩) ∧
      shown (closesLoading ++ repliesLate) =
        ([.disposed, .fileChanged ⟨1, 3⟩], "a", some ⟨1, 3⟩, ⟨.text "one", false, false⟩) := by
  intro closed
  exact ⟨by decide +kernel, by decide +kernel, by decide +kernel, by decide +kernel,
    by decide +kernel, by decide +kernel⟩

end Traffic

end Folio
