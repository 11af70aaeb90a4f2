/-
# How a context changes

Whatever is done to a context is made of five kinds of changes, each with what it announces: the
model is replaced, the context follows a move, a save is known, the metadata are known, the context
is closed (`Context.Change`).  The end of the first load or save comes after those, once, and only
if the metadata are known by then does it make the context ready (`Context.Proceeds`).

So in every step of every process, and in whatever the host does, each context proceeds in this way,
and a context that is new is as it was made (`Session.Proceeds`).  What is shown of contexts in the
course of a session is shown of a change and of the end of the first load.
-/
import Folio.Proofs.Ensemble.Advance

namespace Folio

namespace Context

/-! ## 1. Changes -/

/-- To follow a move leaves the model. -/
theorem model_followMove (c : Context) (target : String) :
    (c.followMove target).model = c.model := by
  unfold followMove
  split <;> rfl

/-- So does the end of the first load or save. -/
theorem model_settle (c : Context) (result : Except ContextError Unit) :
    (c.settle result).model = c.model := by
  obtain ⟨state, events, same⟩ := c.settle_eq result
  rw [same]

/-- All that a context has announced, oldest first. -/
def announced (c : Context) : List Announcement := c.events.entries.toList

@[simp] theorem announced_emit (c : Context) (e : Announcement) :
    (c.emit e).announced = c.announced ++ [e] := by
  simp [announced, emit, Journal.emit]

/-- **One change of a context**, with what it announces. -/
inductive Change (c : Context) : Context → Prop
  | models (model : Model) : c.Change { c with model }
  | follows {target : String} (away : c.path ≠ target) :
      c.Change ({ c with path := target }.emit (.pathChanged target))
  | saves (model : Model) (m : Metadata) :
      c.Change (({ c with remote := some m, model }.emit (.saved m)).emit (.fileChanged m))
  | learns (model : Model) (m : Metadata) :
      c.Change ({ c with model, remote := some m }.emit (.fileChanged m))
  | closes (live : c.isDisposed = false) :
      c.Change ({ c with state := .disposed }.emit .disposed)

/-- **Changes**, one after the other. -/
def Changes : Context → Context → Prop := Relation.ReflTransGen Change

namespace Changes

variable {c d e : Context}

theorem refl (c : Context) : c.Changes c := Relation.ReflTransGen.refl

theorem trans (h : c.Changes d) (h' : d.Changes e) : c.Changes e := Relation.ReflTransGen.trans h h'

theorem one (h : c.Change d) : c.Changes d := Relation.ReflTransGen.single h

/-- **What every change keeps, changes keep.** -/
theorem keeps {P : Context → Prop} (h : ∀ {c d}, Change c d → P c → P d) (changes : c.Changes d)
    (hc : P c) : P d := by
  induction changes with
  | refl => exact hc
  | tail _ change ih => exact h change ih

theorem followMove (c : Context) (target : String) : c.Changes (c.followMove target) := by
  unfold Context.followMove
  split
  · exact refl c
  · next away => exact one (.follows away)

theorem dispose (c : Context) : c.Changes c.dispose := by
  unfold Context.dispose
  split
  · exact refl c
  · next live => exact one (.closes (Bool.eq_false_iff.mpr live))

theorem afterSave (c : Context) (reply : Except StoreError Metadata) :
    c.Changes (c.afterSave reply).1 := by
  cases reply with
  | error e => exact refl c
  | ok m => exact one (.saves _ m)

theorem afterRevert (c : Context) (path : String) (reply : Except StoreError RemoteFile) :
    c.Changes (c.afterRevert path reply).1 := by
  rcases c.afterRevert_cases path reply with ⟨e, failed⟩ | ⟨file, model, -, done⟩
  · rw [failed]
    exact refl c
  · rw [done]
    exact one (.learns _ _)

theorem afterRename (c : Context) (target : String) (reply : Except StoreError Metadata) :
    c.Changes (c.afterRename target reply).1 := by
  cases reply with
  | error e => exact refl c
  | ok m => exact (followMove c target).trans (one (.learns (c.followMove target).model m))

/-- **What an attempt does to its context.** -/
theorem attempt (s : Attempt.Scene) : (a : Attempt) → (answer : a.need.Answer) →
    s.context.Changes (Attempt.resume s a answer).1.context
  | .due, () => by
    simp only [Attempt.resume, Attempt.begin, Attempt.beginSave]
    split
    · exact refl _
    · split
      · split <;> exact refl _
      · exact refl _
  | .checking path, reply => by
    simp only [Attempt.resume, Attempt.afterCheck, Attempt.beginSave]
    split
    · split <;> exact refl _
    · split
      · split <;> exact refl _
      · split <;> exact refl _
  | .asking prompt, answer => by
    cases answer with
    | cancel => exact refl _
    | revert => simp only [Attempt.resume, Attempt.afterAnswer]; split <;> exact refl _
    | overwrite =>
      simp only [Attempt.resume, Attempt.afterAnswer, Attempt.beginSave]
      split <;> exact refl _
  | .reverting path, reply => afterRevert s.context path reply
  | .saving since path request, reply => by
    have saved := afterSave s.context reply
    simp only [Attempt.resume, Attempt.afterSave]
    split <;> exact saved

end Changes

/-! ## 2. The end of the first load or save -/

/-- **A context proceeds**: it changes, and then its first load or save may end, with success only
if the metadata are known. -/
inductive Proceeds (c : Context) : Context → Prop
  | changes {d : Context} (changes : c.Changes d) : c.Proceeds d
  | settles {d : Context} {result : Except ContextError Unit} (changes : c.Changes d)
      (known : result = .ok () → d.remote.isSome = true) : c.Proceeds (d.settle result)

/-- A save that is done has made the metadata known. -/
theorem isSome_remote_afterSave {c : Context} {reply : Except StoreError Metadata}
    (h : (c.afterSave reply).2 = .ok ()) : (c.afterSave reply).1.remote.isSome = true := by
  cases reply with
  | error e => cases h
  | ok m => rfl

/-- And so has a reload. -/
theorem isSome_remote_afterRevert {c : Context} {path : String}
    {reply : Except StoreError RemoteFile} (h : (c.afterRevert path reply).2 = .ok ()) :
    (c.afterRevert path reply).1.remote.isSome = true := by
  rcases c.afterRevert_cases path reply with ⟨e, failed⟩ | ⟨file, model, -, done⟩
  · rw [failed] at h
    cases h
  · rw [done]
    rfl

namespace Proceeds

variable {c : Context}

theorem refl (c : Context) : c.Proceeds c := .changes (.refl c)

/-- An operation that has ended, and may have been the first load or save. -/
theorem conclude {outcome : Context × Except ContextError Unit} (first : Bool)
    (changes : c.Changes outcome.1)
    (known : outcome.2 = .ok () → outcome.1.remote.isSome = true) :
    c.Proceeds (ContextCall.conclude first outcome).1 := by
  cases first with
  | false => exact .changes changes
  | true => exact .settles changes known

/-- **What an operation does to its context.** -/
theorem resume (c : Context) : (call : ContextCall) → (reply : call.request.Reply) →
    c.Proceeds (ContextCall.resume c call reply).1
  | .saving _ _ first, reply => conclude first (.afterSave c reply) isSome_remote_afterSave
  | .reverting path first, reply =>
    conclude first (.afterRevert c path reply) isSome_remote_afterRevert
  | .fetching _, _ => refl c
  | .renaming _ target, reply => .changes (.afterRename c target reply)
  | .checkpointing _, _ => refl c
  | .listing _, _ => refl c
  | .restoring _ _, .error _ => refl c
  | .restoring _ _, .ok () => by
    simp only [ContextCall.resume]
    split <;> exact refl c

end Proceeds

/-- **A context is fresh**: it is loading, knows nothing of its file, and has announced nothing. -/
structure IsFresh (c : Context) : Prop where
  loading : c.state = .loading
  unknown : c.remote = none
  silent : c.announced = []

end Context

namespace Session

variable {s t u : Session}

/-! ## 3. What edits do to contexts -/

/-- Replacing a context by one that it can become changes no other. -/
theorem context_setContext_related {R : Context → Context → Prop} (refl : ∀ c, R c c)
    {c : ContextId} {context : Context} (h : R (s.context c) context) (d : ContextId) :
    R (s.context d) ((s.setContext c context).context d) := by
  by_cases same : d = c
  · subst same
    by_cases made : d < s.contexts.length
    · rwa [context_setContext context made]
    · have unmade : (s.setContext d context).context d = s.context d := by
        rw [setContext, Session.context, List.set_eq_of_length_le (Nat.le_of_not_lt made)]
        rfl
      rw [unmade]
      exact refl _
  · rw [context_setContext_of_ne context same]
    exact refl _

/-- **All contexts that were made change**, if they do not stay as they are. -/
structure ChangesContexts (s t : Session) : Prop where
  length : s.contexts.length ≤ t.contexts.length
  changes : ∀ c < s.contexts.length, (s.context c).Changes (t.context c)

namespace ChangesContexts

theorem of_eq (contexts : t.contexts = s.contexts) : s.ChangesContexts t where
  length := Nat.le_of_eq (congrArg List.length contexts.symm)
  changes c _ := by
    rw [context, context, contexts]
    exact .refl _

theorem trans (h : s.ChangesContexts t) (h' : t.ChangesContexts u) : s.ChangesContexts u where
  length := Nat.le_trans h.length h'.length
  changes c made := (h.changes c made).trans (h'.changes c (Nat.lt_of_lt_of_le made h.length))

theorem setContext {c : ContextId} {context : Context} (h : (s.context c).Changes context) :
    s.ChangesContexts (s.setContext c context) where
  length := by simp [Session.setContext]
  changes d _ := context_setContext_related Context.Changes.refl h d

theorem edit (h : s.Edit t) : s.ChangesContexts t := by
  cases h with
  | newTracked path factory isNew =>
    constructor
    · simp [newTracked, addContext, addCoordinator, start]
    · intro c made
      rw [context_newTracked_of_lt path factory isNew made]
      exact .refl _
  | followMove c target => exact setContext (.followMove _ target)
  | dispose c => exact setContext (.dispose _)
  | startCoordinator k => exact of_eq (contexts_startCoordinator s k)
  | retireWidget w => cases w <;> exact of_eq rfl
  | _ => exact of_eq rfl

/-- **What a call of the manager does in a step to the contexts that are there.** -/
theorem stage (s : Session) (stage : Stage) (answer : stage.need.Answer) :
    s.ChangesContexts (stage.resume s answer).1 :=
  (Edits.stage s stage answer).keeps (P := s.ChangesContexts) (fun next on => on.trans (edit next))
    (of_eq rfl)

end ChangesContexts

/-! ## 4. New contexts -/

/-- **The contexts that are new** are fresh. -/
def BearsFresh (s t : Session) : Prop :=
  ∀ c, s.contexts.length ≤ c → c < t.contexts.length → (t.context c).IsFresh

namespace BearsFresh

/-- No context is new. -/
theorem of_length (h : t.contexts.length = s.contexts.length) : s.BearsFresh t := by
  intro c new made
  omega

/-- Contexts are new since a session that has as many. -/
theorem since (h : t.contexts.length = s.contexts.length) (h' : t.BearsFresh u) :
    s.BearsFresh u := by
  intro c new made
  exact h' c (by omega) made

/-- One context is added that is fresh. -/
theorem added {context : Context} (contexts : t.contexts = s.contexts ++ [context])
    (fresh : context.IsFresh) : s.BearsFresh t := by
  intro c new made
  rw [contexts, List.length_append, List.length_singleton] at made
  obtain rfl : c = s.contexts.length := by omega
  simpa [Session.context, contexts] using fresh

theorem afterClosing (s : Session) : (after : AfterClosing) →
    s.BearsFresh (Manager.afterClosing s after).1
  | .open path widget model hint => by
    simp only [Manager.afterClosing, Manager.openNow]
    split
    · exact of_length rfl
    · exact added rfl ⟨rfl, rfl, rfl⟩
  | .create path widget model hint => added rfl ⟨rfl, rfl, rfl⟩
  | .follow source target => of_length <|
    Manager.followAll_keeps (·.contexts.length) (fun _ _ _ => List.length_set) s source target
  | .delete _ => of_length rfl
  | .clear _ => of_length rfl
  | .finish _ => of_length rfl

theorem retireEach (s : Session) (closing : List Tracked) (after : AfterClosing) :
    s.BearsFresh (Manager.retireEach s closing after).1 := by
  cases closing with
  | nil => exact afterClosing s after
  | cons t rest => exact of_length rfl

theorem retireWhere (s : Session) (test : Tracked → Bool) (after : AfterClosing) :
    s.BearsFresh (Manager.retireWhere s test after).1 := by
  have retired := retireEach (s.setTracked (s.manager.tracked.filter fun t => !test t))
    (s.manager.tracked.filter test) after
  rw [Manager.retireWhere_eq]
  exact .since rfl retired

theorem unbind (s : Session) (widget : WidgetId) (confirmed : Bool) :
    s.BearsFresh (Manager.unbind s widget confirmed).1 := by
  have taken : ((s.setBindings (s.manager.bindings.eraseP (·.widget == widget))).retireWidget
      widget).contexts.length = s.contexts.length := by
    cases widget <;> rfl
  unfold Manager.unbind
  split
  · exact of_length rfl
  · simp only
    split
    · exact of_length rfl
    · split
      · exact of_length taken
      · split
        · exact of_length taken
        · exact of_length taken

/-- **A call of the manager makes fresh contexts**, if any. -/
theorem stage (s : Session) (stage : Stage) (answer : stage.need.Answer) :
    s.BearsFresh (stage.resume s answer).1 := by
  cases alters : stage.alters with
  | false => exact of_length (LeavesContexts.stage s stage answer alters).contexts_length
  | true =>
    cases stage with
    | updating update =>
      cases update with
      | closeWidget widget confirmed => exact of_length rfl
      | renameFile source target =>
        simp only [Stage.resume, Manager.update, Manager.beginMove]
        split <;> exact of_length rfl
      | _ => exact retireWhere s _ _
    | closing t rest after =>
      exact .since (contexts_length_retireContext s t) (retireEach _ rest after)
    | binding w c => exact of_length rfl
    | unbinding widget confirmed => exact unbind s widget confirmed
    | clearing last => cases last <;> exact of_length rfl
    | moving source target models =>
      cases answer with
      | error e => exact of_length rfl
      | ok m => exact retireWhere s _ _
    | _ => cases alters

end BearsFresh

/-! ## 5. What any move does to contexts -/

/-- **A session proceeds**: every context that was made does, and those that are new are fresh. -/
structure Proceeds (s t : Session) : Prop where
  length : s.contexts.length ≤ t.contexts.length
  context : ∀ c < s.contexts.length, (s.context c).Proceeds (t.context c)
  fresh : s.BearsFresh t

namespace Proceeds

theorem of_contexts (contexts : t.contexts = s.contexts) : s.Proceeds t where
  length := Nat.le_of_eq (congrArg List.length contexts.symm)
  context c _ := by
    rw [Session.context, Session.context, contexts]
    exact .refl _
  fresh := .of_length (congrArg List.length contexts)

theorem of_changes (changes : s.ChangesContexts t) (fresh : s.BearsFresh t) : s.Proceeds t where
  length := changes.length
  context c made := .changes (changes.changes c made)
  fresh := fresh

theorem setContext {c : ContextId} {context : Context} (h : (s.context c).Proceeds context) :
    s.Proceeds (s.setContext c context) where
  length := by simp [Session.setContext]
  context d _ := context_setContext_related Context.Proceeds.refl h d
  fresh := .of_length (by simp [Session.setContext])

/-- What is done next leaves the contexts as they are. -/
theorem then_contexts (h : s.Proceeds t) (contexts : u.contexts = t.contexts) : s.Proceeds u where
  length := contexts ▸ h.length
  context c made := by
    have same : u.context c = t.context c := by rw [Session.context, contexts, Session.context]
    rw [same]
    exact h.context c made
  fresh c new made := by
    rw [contexts] at made
    rw [Session.context, contexts]
    exact h.fresh c new made

/-- **However a process goes on**, the session proceeds. -/
theorem process (s : Session) (p : Process) (answer : p.need.Answer) :
    s.Proceeds (p.resume s answer).1 := by
  by_cases conducts : ∃ stage, p = .manager stage
  · obtain ⟨stage, rfl⟩ := conducts
    have proceeds := of_changes (.stage s stage answer) (.stage s stage answer)
    simp only [Process.resume]
    split <;> (next h => rw [h] at proceeds; exact proceeds)
  · have makes := p.makes s answer (not_exists.mp conducts)
    generalize (p.resume s answer).1 = t at makes ⊢
    cases makes with
    | called c call reply => exact setContext (.resume _ call reply)
    | loads k call reply => exact setContext (.resume _ call reply)
    | starts k call reply =>
      exact (setContext (.resume _ call reply)).then_contexts (contexts_startCoordinator _ k)
    | acts k a given =>
      exact (setContext (.changes (.attempt (s.scene k) a given))).then_contexts rfl
    | _ => exact of_contexts rfl

/-- **Whatever the host does**, the session proceeds. -/
theorem deed (s : Session) (d : Deed) : s.Proceeds (d.apply s) := by
  cases d with
  | setModel c model => exact setContext (.changes (.one (.models model)))
  | followMove c target => exact setContext (.changes (.followMove _ target))
  | disposeContext c => exact setContext (.changes (.dispose _))
  | disposeWidget w => cases w <;> exact of_contexts rfl
  | newContext path modelFactory contentType kind =>
    refine ⟨by simp [Deed.apply, addContext], fun c made => ?_, .added rfl ⟨rfl, rfl, rfl⟩⟩
    rw [Deed.apply, context_addContext_of_lt _ made]
    exact .refl _
  | startCoordinator k => exact of_contexts (contexts_startCoordinator s k)
  | _ => exact of_contexts rfl

end Proceeds

end Session

/-- **Every move lets the session proceed.** -/
theorem Ensemble.proceeds_step (e : Ensemble) : (m : Move) → e.session.Proceeds (e.step m).session
  | .deed d => (Session.Proceeds.deed e.session d).then_contexts rfl
  | .enter p => by
    simp only [step]
    split <;> exact .of_contexts rfl
  | .go i oracle => by
    simp only [step]
    rcases go_cases e i oracle with same | ⟨p, others, -, -, same⟩
    · rw [same]
      exact .of_contexts rfl
    · rw [same]
      exact (Session.Proceeds.process _ p _).then_contexts rfl

end Folio
