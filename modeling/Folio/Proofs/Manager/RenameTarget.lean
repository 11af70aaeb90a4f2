/-
# Changes at the target of a move

A call that moves a file looks for changes that would be lost before it asks the store, and is
refused if there are any.  It does not look again: what is at the target when the store has replied
is closed.  So changes are safe if nobody makes any in between (`Traffic.rename_spares_changes`),
and changes that are made while the store moves the file are lost
(`Traffic.rename_discards_changes`).

`Stage.wouldClose` names the contexts that a call which has looked is going to close, and says of
every other context at which path it would be closed, too.  Under the guard `Traffic.sparesChanges`,
which is about single moves of others, none of these contexts ever has unsaved changes: the call
itself keeps that from its look on (`Stage.saved_next`), and while it has the contexts all others
are bystanders.
-/
import Folio.Proofs.Manager.RenameFile
import Folio.Proofs.Session.Contexts

namespace Folio

/-! ## 1. Unsaved changes -/

namespace Context

/-- **The context has unsaved changes**: it is live, its first load has not failed, and its model is
not as it was persisted. -/
def isUnsaved (c : Context) : Bool := !c.isDisposed && !c.hasFailed && c.model.dirty

variable {c d : Context}

theorem isUnsaved_iff :
    c.isUnsaved = true ↔ c.isDisposed = false ∧ c.hasFailed = false ∧ c.model.dirty = true := by
  simp [isUnsaved, and_assoc]

/-- **A context that evolves without new changes** has unsaved ones only if it had them. -/
theorem Evolves.isUnsaved (evolves : c.Evolves d)
    (dirty : d.model.dirty = true → c.model.dirty = true) (unsaved : d.isUnsaved = true) :
    c.isUnsaved = true := by
  obtain ⟨live, loaded, changed⟩ := isUnsaved_iff.mp unsaved
  refine isUnsaved_iff.mpr ⟨Bool.eq_false_iff.mpr fun closed => ?_,
    Bool.eq_false_iff.mpr fun failed => ?_, dirty changed⟩
  · exact Bool.eq_false_iff.mp live (evolves.disposed closed)
  · rcases evolves.failed failed with failed | closed
    · exact Bool.eq_false_iff.mp loaded failed
    · exact Bool.eq_false_iff.mp live closed

/-- No answer of the store makes a change. -/
theorem dirty_of_afterSave {reply : Except StoreError Metadata}
    (h : (c.afterSave reply).1.model.dirty = true) : c.model.dirty = true := by
  cases reply with
  | error e => exact h
  | ok m => cases h

theorem dirty_of_afterRevert {path : String} {reply : Except StoreError RemoteFile}
    (h : (c.afterRevert path reply).1.model.dirty = true) : c.model.dirty = true := by
  rcases c.afterRevert_cases path reply with ⟨e, failed⟩ | ⟨file, model, -, done⟩
  · rwa [failed] at h
  · rw [done] at h
    cases h

end Context

namespace ContextCall

variable {c : Context}

theorem dirty_of_conclude {first : Bool} {outcome : Context × Except ContextError Unit}
    (h : (conclude first outcome).1.model.dirty = true) : outcome.1.model.dirty = true := by
  cases first with
  | false => exact h
  | true => exact (congrArg Model.dirty (Context.model_settle _ _)).symm.trans h

/-- **An operation makes no change.** -/
theorem dirty_of_resume : {call : ContextCall} → {reply : call.request.Reply} →
    (resume c call reply).1.model.dirty = true → c.model.dirty = true
  | .saving _ _ _, _, h => Context.dirty_of_afterSave (dirty_of_conclude h)
  | .reverting _ _, _, h => Context.dirty_of_afterRevert (dirty_of_conclude h)
  | .fetching _, _, h => h
  | .renaming _ _, .error _, h => h
  | .renaming _ target, .ok _, h =>
    (congrArg Model.dirty (Context.model_followMove c target)).symm.trans h
  | .checkpointing _, _, h => h
  | .listing _, _, h => h
  | .restoring _ _, .error _, h => h
  | .restoring _ _, .ok (), h => by
    simp only [resume] at h
    split at h <;> exact h

theorem isUnsaved_of_resume {call : ContextCall} {reply : call.request.Reply}
    (h : (resume c call reply).1.isUnsaved = true) : c.isUnsaved = true :=
  (Context.Evolves.resume c call reply).isUnsaved dirty_of_resume h

end ContextCall

/-- **An attempt makes no change.** -/
theorem Attempt.dirty_of_resume {s : Scene} : {a : Attempt} → {answer : a.need.Answer} →
    (Attempt.resume s a answer).1.context.model.dirty = true → s.context.model.dirty = true
  | .due, (), h => by rwa [context_resume_due] at h
  | .checking _, _, h => by rwa [context_resume_checking] at h
  | .asking _, _, h => by rwa [context_resume_asking] at h
  | .reverting _, _, h => Context.dirty_of_afterRevert h
  | .saving since _ _, reply, h => by
    have same := context_afterSave s since reply
    exact Context.dirty_of_afterSave (same ▸ h)

/-- A context that is closed is disposed, whether it was made or not. -/
theorem Session.isDisposed_retireContext (s : Session) (t : Tracked) :
    ((s.retireContext t).context t.context).isDisposed = true := by
  by_cases made : t.context < s.contexts.length
  · rw [context_retireContext made]
    exact Context.isDisposed_dispose _
  · have none : (s.retireContext t).contexts[t.context]? = none := by
      refine List.getElem?_eq_none ?_
      rw [contexts_length_retireContext]
      exact Nat.le_of_not_lt made
    rw [context, none]
    rfl

/-! ## 2. What a call is going to close -/

/-- **The call would close the context**, were it at a path: the store is moving a file to that path
and the context is of a model factory that comes there; or the store has replied, and the context is
one of those that are closed now. -/
def Stage.wouldClose (s : Session) (c : ContextId) (path : String) : Stage → Bool
  | .moving _ target models =>
    path == target && models.any (Text.sameAscii (s.context c).modelFactory) &&
      s.manager.tracked.any (·.context == c)
  | .closing first rest (.follow _ _) => (first :: rest).any (·.context == c)
  | _ => false

/-- **What a call is going to close has no unsaved changes.** -/
def Session.Saved (s : Session) (stage : Stage) : Prop :=
  ∀ c, stage.wouldClose s c (s.context c).path = true → (s.context c).isUnsaved = false

/-- A context that is displaced has unsaved changes. -/
theorem Manager.isDisplacedUnsaved_eq (s : Session) (target : String) (models : List String)
    (t : Tracked) : isDisplacedUnsaved s target models t =
      (isDisplaced s target models t && (s.context t.context).isUnsaved) := by
  cases displaced : isDisplaced s target models t with
  | false => simp [isDisplacedUnsaved, displaced]
  | true =>
    obtain ⟨model, -, stands⟩ := List.any_eq_true.mp displaced
    have live : (s.context t.context).isDisposed = false := by
      simp only [Session.standsFor, Bool.and_eq_true, Bool.not_eq_true'] at stands
      exact stands.1.1
    simp [isDisplacedUnsaved, displaced, Context.isUnsaved, live]

/-- **Who is displaced**: a live context at the target, of a model factory that comes there. -/
theorem Manager.isDisplaced_eq (s : Session) (target : String) (models : List String)
    (t : Tracked) :
    isDisplaced s target models t =
      (!(s.context t.context).isDisposed && (s.context t.context).path == target &&
        models.any (Text.sameAscii (s.context t.context).modelFactory)) := by
  simp only [isDisplaced, Session.standsFor]
  induction models with
  | nil => simp
  | cons m models ih =>
    rw [List.any_cons, List.any_cons, ih, ← Bool.and_or_distrib_left]

namespace Stage

variable {source target : String} {p q : Stage}

/-- **The call has looked** and goes on with its move. -/
def hasLooked (source target : String) : Stage → Prop
  | .moving s t _ => s = source ∧ t = target
  | .closing _ _ (.follow s t) => s = source ∧ t = target
  | _ => False

/-- **The store is asked to move a file only after the look.** -/
theorem of_goesOn_moving {models : List String} (h : p.goesOn (.moving source target models)) :
    p = .updating (.renameFile source target) := by
  cases p with
  | called op => cases op <;> simp [goesOn, entry] at h
  | updating update =>
    cases update with
    | renameFile s t =>
      obtain ⟨_, same⟩ := h
      cases same
      rfl
    | _ => simp [goesOn, closesFor] at h
  | finding path widget model otherwise => simp [goesOn, opens] at h
  | searching c widget otherwise => simp [goesOn, opens] at h
  | unbinding w confirmed => simp [goesOn] at h
  | confirming w => cases h
  | _ => exact absurd h id

/-- **It has looked before, or this is when it looks.** -/
theorem of_goesOn_hasLooked (next : p.goesOn q) (looked : q.hasLooked source target) :
    p = .updating (.renameFile source target) ∨ p.hasLooked source target := by
  cases q with
  | moving s t models =>
    obtain ⟨rfl, rfl⟩ := looked
    exact .inl (of_goesOn_moving next)
  | closing first rest after =>
    cases after with
    | follow s t =>
      obtain ⟨rfl, rfl⟩ := looked
      rcases of_goesOn_follow next with ⟨models, rfl⟩ | ⟨u, closing, rfl⟩ <;>
        exact .inr ⟨rfl, rfl⟩
    | _ => exact absurd looked id
  | _ => exact absurd looked id

/-- Only a call that has looked would close anything. -/
theorem hasLooked_of_wouldClose {s : Session} {c : ContextId} {path : String}
    (would : p.wouldClose s c path = true) : ∃ source target, p.hasLooked source target := by
  cases p with
  | moving s t models => exact ⟨s, t, rfl, rfl⟩
  | closing first rest after =>
    cases after with
    | follow s t => exact ⟨s, t, rfl, rfl⟩
    | _ => cases would
  | _ => cases would

/-- **A call that has looked has the contexts.** -/
theorem owned?_of_hasLooked (looked : p.hasLooked source target) : p.owned?.isSome = true := by
  cases p with
  | moving s t models => rfl
  | closing first rest after => rfl
  | _ => exact absurd looked id

/-- **The look**: a call that goes on from it has found no unsaved changes, and has changed
nothing. -/
theorem look {s : Session} {q : Stage}
    (h : ((Stage.updating (.renameFile source target)).resume s ()).2 = .inl q) :
    s.manager.tracked.any
        (Manager.isDisplacedUnsaved s target (Manager.modelsAt s source)) = false ∧
      (Stage.updating (.renameFile source target)).resume s () =
        (s, .inl (.moving source target (Manager.modelsAt s source))) := by
  simp only [Stage.resume, Manager.update, Manager.beginMove] at h ⊢
  split at h
  · cases h
  · next saved => exact ⟨Bool.eq_false_iff.mpr saved, by rw [if_neg saved]; rfl⟩

/-- What is closed now: the first, and the rest. -/
theorem saved_closing {s : Session} {first : Tracked} {rest : List Tracked} :
    s.Saved (.closing first rest (.follow source target)) ↔
      ∀ t ∈ first :: rest, (s.context t.context).isUnsaved = false := by
  constructor
  · intro saved t ht
    exact saved t.context (List.any_eq_true.mpr ⟨t, ht, beq_self_eq_true _⟩)
  · intro saved c would
    obtain ⟨t, ht, this⟩ := List.any_eq_true.mp would
    obtain rfl := beq_iff_eq.mp this
    exact saved t ht

/-- A call goes on closing contexts if some are left, and does nothing in between. -/
theorem of_retireEach {s : Session} {closing : List Tracked}
    (h : (Manager.retireEach s closing (.follow source target)).2 = .inl q) :
    ∃ first rest, closing = first :: rest ∧ q = .closing first rest (.follow source target) ∧
      (Manager.retireEach s closing (.follow source target)).1 = s := by
  cases closing with
  | nil => cases h
  | cons first rest =>
    cases h
    exact ⟨first, rest, rfl, rfl, rfl⟩

/-- **A step of a call** leaves it nothing to close that has unsaved changes, if it had nothing such
before: it looks, or what it is going to close becomes less. -/
theorem saved_next {s : Session} {stage : Stage} {answer : stage.need.Answer}
    (next : (stage.resume s answer).2 = .inl q) (saved : s.Saved stage) :
    (stage.resume s answer).1.Saved q := by
  intro c would
  obtain ⟨source, target, looked⟩ := hasLooked_of_wouldClose would
  revert c
  rcases of_goesOn_hasLooked (goesOn_of_resume next) looked with rfl | before
  · obtain ⟨clean, same⟩ := look next
    rw [same] at next ⊢
    cases next
    intro c would
    rw [Bool.eq_false_iff]
    intro unsaved
    simp only [wouldClose, Bool.and_eq_true, beq_iff_eq] at would
    obtain ⟨⟨here, model⟩, used⟩ := would
    obtain ⟨t, ht, this⟩ := List.any_eq_true.mp used
    obtain rfl := beq_iff_eq.mp this
    -- it is displaced, and the look would have found its changes
    refine List.any_eq_false.mp clean t ht ?_
    rw [Manager.isDisplacedUnsaved_eq, Manager.isDisplaced_eq]
    simp [(Context.isUnsaved_iff.mp unsaved).1, here, model, unsaved]
  · cases stage with
    | moving s' t' models =>
      obtain ⟨rfl, rfl⟩ := before
      cases answer with
      | error e => cases next
      | ok m =>
        simp only [Stage.resume] at next ⊢
        rw [Manager.retireWhere_eq] at next ⊢
        obtain ⟨first, rest, displaced, rfl, same⟩ := of_retireEach next
        rw [same]
        refine saved_closing.mpr fun t ht => ?_
        rw [← displaced] at ht
        obtain ⟨used, gives⟩ := List.mem_filter.mp ht
        rw [Manager.isDisplaced_eq] at gives
        simp only [Bool.and_eq_true, beq_iff_eq] at gives
        refine saved t.context ?_
        simp only [wouldClose, Bool.and_eq_true, beq_iff_eq]
        exact ⟨⟨gives.1.2, gives.2⟩, List.any_eq_true.mpr ⟨t, used, beq_self_eq_true _⟩⟩
    | closing first rest after =>
      cases after with
      | follow s' t' =>
        simp only [Stage.resume] at next ⊢
        obtain ⟨second, later, rfl, rfl, same⟩ := of_retireEach next
        rw [same]
        refine saved_closing.mpr fun t ht => ?_
        by_cases closed : t.context = first.context
        · rw [closed, Context.isUnsaved, Session.isDisposed_retireContext]
          rfl
        · rw [Session.context_retireContext_of_ne closed]
          exact saved_closing.mp saved t (List.mem_cons_of_mem _ ht)
      | _ => exact absurd before id
    | _ => exact absurd before id

end Stage

/-! ## 3. What others may do -/

/-- The process is about to lead a context to a path, past the manager. -/
def Process.leads? (s : Session) : Process → Option (ContextId × String)
  | .calling c (.renaming _ target) => some (c, target)
  | .loading k (.renaming _ target) => some ((s.coordinator k).context, target)
  | _ => none

/-- The process is a call that would close the context, were it at a path. -/
def Process.wouldClose (s : Session) (c : ContextId) (path : String) : Process → Bool
  | .manager stage => stage.wouldClose s c path
  | _ => false

namespace Traffic

/-- Some call would close the context, were it at a path. -/
def wouldClose (x : Traffic) (c : ContextId) (path : String) : Bool :=
  x.errands.any (·.process.wouldClose x.session c path)

/-- **The move endangers no changes**: no context that a call is going to close is edited so that it
has changes, and none that has unsaved changes is brought to where a call would close it. -/
def sparesChanges (x : Traffic) : Move → Bool
  | .deed (.setModel c model) => !model.dirty || !x.wouldClose c (x.session.context c).path
  | .deed (.followMove c target) =>
    !(x.session.context c).isUnsaved || !x.wouldClose c target
  | .go i _ => x.errands[i]?.all fun t => (t.process.leads? x.session).all fun lead =>
      !(x.session.context lead.1).isUnsaved || !x.wouldClose lead.1 lead.2
  | _ => true

/-- **No changes come into danger**: the same contexts are in use, and each that has unsaved changes
had them before and is still at its path, or no call would close it where it is. -/
structure Spares (x : Traffic) (t : Session) : Prop where
  tracked : t.manager.tracked = x.session.manager.tracked
  modelFactory : ∀ c, (t.context c).isUnsaved = true →
    (t.context c).modelFactory = (x.session.context c).modelFactory
  context : ∀ c, (t.context c).isUnsaved = true →
    ((x.session.context c).isUnsaved = true ∧
      (t.context c).path = (x.session.context c).path) ∨
    x.wouldClose c (t.context c).path = false

/-- **What calls are going to close has no unsaved changes.** -/
def Saved (x : Traffic) : Prop :=
  ∀ t ∈ x.errands, ∀ stage, t.process = .manager stage → x.session.Saved stage

namespace Spares

variable {x : Traffic} {t u : Session}

/-- Contexts in use and contexts stay. -/
theorem then_eq (spares : x.Spares t) (tracked : u.manager.tracked = t.manager.tracked)
    (contexts : u.contexts = t.contexts) : x.Spares u := by
  have same (c : ContextId) : u.context c = t.context c := by
    rw [Session.context, contexts, Session.context]
  refine ⟨tracked.trans spares.tracked, fun c => ?_, fun c => ?_⟩
  · rw [same]
    exact spares.modelFactory c
  · rw [same]
    exact spares.context c

theorem refl (x : Traffic) : x.Spares x.session :=
  ⟨rfl, fun _ _ => rfl, fun _ unsaved => .inl ⟨unsaved, rfl⟩⟩

theorem of_eq (tracked : t.manager.tracked = x.session.manager.tracked)
    (contexts : t.contexts = x.session.contexts) : x.Spares t := (refl x).then_eq tracked contexts

/-- One context is replaced. -/
theorem setContext {c : ContextId} {context : Context}
    (modelFactory : context.modelFactory = (x.session.context c).modelFactory)
    (safe : context.isUnsaved = true →
      ((x.session.context c).isUnsaved = true ∧ context.path = (x.session.context c).path) ∨
      x.wouldClose c context.path = false) : x.Spares (x.session.setContext c context) := by
  have cases_context (d : ContextId) :
      (x.session.setContext c context).context d = x.session.context d ∨
        (d = c ∧ (x.session.setContext c context).context d = context) := by
    by_cases this : d = c
    · by_cases made : d < x.session.contexts.length
      · exact .inr ⟨this, this ▸ Session.context_setContext context (this ▸ made)⟩
      · refine .inl ?_
        have kept : x.session.contexts.set c context = x.session.contexts :=
          List.set_eq_of_length_le (this ▸ Nat.le_of_not_lt made)
        rw [Session.context, Session.setContext, kept, Session.context]
    · exact .inl (Session.context_setContext_of_ne context this)
  refine ⟨rfl, fun d => ?_, fun d => ?_⟩
  · rcases cases_context d with same | ⟨rfl, same⟩
    · rw [same]
      exact fun _ => rfl
    · rw [same]
      exact fun _ => modelFactory
  · rcases cases_context d with same | ⟨rfl, same⟩
    · rw [same]
      exact fun unsaved => .inl ⟨unsaved, rfl⟩
    · rw [same]
      exact safe

/-- **What the host does.** -/
theorem deed {d : Deed} (spares : x.sparesChanges (.deed d) = true) :
    x.Spares (d.apply x.session) := by
  cases d with
  | setModel c model =>
    refine setContext rfl fun unsaved => .inr ?_
    have changed : model.dirty = true := (Context.isUnsaved_iff.mp unsaved).2.2
    simpa [sparesChanges, changed] using spares
  | followMove c target =>
    have evolves := Context.Evolves.followMove (x.session.context c) target
    refine setContext evolves.modelFactory fun unsaved => .inr ?_
    have before : (x.session.context c).isUnsaved = true :=
      evolves.isUnsaved (by rw [Context.model_followMove]; exact id) unsaved
    rw [Session.path_followMove]
    simpa [sparesChanges, before] using spares
  | disposeContext c =>
    refine setContext (Context.Evolves.dispose _).modelFactory fun unsaved => ?_
    rw [Context.isUnsaved, Context.isDisposed_dispose] at unsaved
    cases unsaved
  | newContext path modelFactory contentType kind =>
    have fresh (c : ContextId) (unsaved : ((Deed.apply x.session
        (.newContext path modelFactory contentType kind)).context c).isUnsaved = true) :
        (Deed.apply x.session (.newContext path modelFactory contentType kind)).context c =
          x.session.context c := by
      rcases Nat.lt_trichotomy c x.session.contexts.length with made | rfl | beyond
      · exact Session.context_addContext_of_lt _ made
      · rw [Deed.apply, Session.context_addContext] at unsaved
        cases unsaved
      · have none (l : List Context) (hl : l.length ≤ c) :
            (l[c]?.getD default : Context) = default := by
          rw [List.getElem?_eq_none hl]
          rfl
        rw [Session.context, Session.context, none, none]
        · omega
        · simp only [Deed.apply, Session.addContext, List.length_append, List.length_singleton]
          omega
    refine ⟨rfl, fun c unsaved => by rw [fresh c unsaved], fun c unsaved => ?_⟩
    have same := fresh c unsaved
    rw [same] at unsaved ⊢
    exact .inl ⟨unsaved, rfl⟩
  | startCoordinator k =>
    refine of_eq ?_ (Session.contexts_startCoordinator _ k)
    rw [Deed.apply, Session.manager_startCoordinator]
  | disposeWidget w => cases w <;> exact of_eq rfl rfl
  | _ => exact of_eq rfl rfl

/-- **An operation on a context**, which may lead it to a path. -/
theorem called {c : ContextId} {call : ContextCall} (reply : call.request.Reply)
    (safe : ∀ source target, call = .renaming source target →
      (x.session.context c).isUnsaved = false ∨ x.wouldClose c target = false) :
    x.Spares (x.session.setContext c
      (ContextCall.resume (x.session.context c) call reply).1) := by
  refine setContext (Context.Evolves.resume _ call reply).modelFactory fun unsaved => ?_
  have before := ContextCall.isUnsaved_of_resume unsaved
  have stays (quiet : call.moves = false) :
      (ContextCall.resume (x.session.context c) call reply).1.path =
        (x.session.context c).path :=
    ContextCall.looks_resume Context.lasting_path _ call reply fun moves =>
      absurd (quiet.symm.trans moves) (by decide)
  cases call with
  | «renaming» source target =>
    cases reply with
    | error e => exact .inl ⟨before, rfl⟩
    | ok m =>
      rcases safe source target rfl with clean | safe
      · exact absurd before (Bool.eq_false_iff.mp clean)
      · refine .inr ?_
        have there : (ContextCall.resume (x.session.context c) (.renaming source target)
            (.ok m)).1.path = target := Session.path_followMove _ target
        rw [there]
        exact safe
  | _ => exact .inl ⟨before, stays rfl⟩

/-- **A step of a bystander.** -/
theorem process {p : Process} (answer : p.need.Answer) (bystander : p.alters = false)
    (safe : (p.leads? x.session).all (fun lead =>
      !(x.session.context lead.1).isUnsaved || !x.wouldClose lead.1 lead.2) = true) :
    x.Spares (p.resume x.session answer).1 := by
  by_cases conducts : ∃ stage, p = .manager stage
  · obtain ⟨stage, rfl⟩ := conducts
    have leaves := Session.LeavesContexts.stage x.session stage answer bystander
    rw [Ensemble.session_manager]
    exact of_eq leaves.tracked leaves.contexts
  · have makes := p.makes x.session answer (not_exists.mp conducts)
    generalize (p.resume x.session answer).1 = t at makes ⊢
    cases makes with
    | nothing => exact refl x
    | called c call reply =>
      refine called reply fun source target leads => ?_
      subst leads
      simpa [Process.leads?, or_comm] using safe
    | loads k call reply =>
      refine called reply fun source target leads => ?_
      subst leads
      simpa [Process.leads?, or_comm] using safe
    | starts k call reply =>
      refine (called reply fun source target leads => ?_).then_eq
        (congrArg Manager.tracked (Session.manager_startCoordinator _ k))
        (Session.contexts_startCoordinator _ k)
      subst leads
      simpa [Process.leads?, or_comm] using safe
    | acts k a given =>
      have evolves := Attempt.Scene.Evolves.resume (x.session.scene k) a given
      have stays := Attempt.looks_resume Context.lasting_path (x.session.scene k) a given
      refine (setContext (c := (x.session.coordinator k).context) evolves.context.modelFactory
        fun unsaved => .inl ⟨?_, stays⟩).then_eq rfl rfl
      exact evolves.context.isUnsaved Attempt.dirty_of_resume unsaved
    | _ => exact of_eq rfl rfl

/-- **What a call is going to close stays without unsaved changes.** -/
theorem saved (spares : x.Spares t) {stage : Stage} (saved : x.session.Saved stage)
    {e : Errand} (he : e ∈ x.errands) (at_stage : e.process = .manager stage) : t.Saved stage := by
  intro c would
  rw [Bool.eq_false_iff]
  intro unsaved
  -- the call would have closed it before, had it been where it is now
  have before : stage.wouldClose x.session c (t.context c).path = true := by
    cases stage with
    | moving source target models =>
      rw [Stage.wouldClose, spares.modelFactory c unsaved, spares.tracked] at would
      exact would
    | closing first rest after => cases after <;> exact would
    | _ => cases would
  rcases spares.context c unsaved with ⟨had, stays⟩ | safe
  · rw [stays] at before
    exact Bool.eq_false_iff.mp (saved c before) had
  · have none := List.any_eq_false.mp (show x.errands.any _ = false from safe) e he
    rw [at_stage] at none
    exact none before

end Spares

/-! ## 4. Runs -/

variable {x : Traffic}

namespace Saved

/-- **A step of a process**: of the call itself, or beside it. -/
theorem resumed (saved : x.Saved) (coherent : x.IsCoherent) {fits : Process → Prop}
    {Inv : Session → Option Stage → Prop} (orderly : Ensemble.Orderly fits Inv x.ensemble)
    {before after : List Errand} {t : Errand} {answer : t.process.need.Answer}
    (split : x.errands = before ++ t :: after)
    (free : Ensemble.permits ((before ++ after).map (·.process)) t.process.need = true)
    (safe : (t.process.leads? x.session).all (fun lead =>
      !(x.session.context lead.1).isUnsaved || !x.wouldClose lead.1 lead.2) = true) :
    (x.resumed (before ++ after) t answer).Saved := by
  intro u hu stage at_stage
  rcases mem_resumed hu with other | ⟨-, led, -⟩ | ⟨fresh, -⟩
  · intro c would
    obtain ⟨source, target, looked⟩ := Stage.hasLooked_of_wouldClose would
    -- the call has the contexts, so the step is one of a bystander
    have there : u ∈ x.errands := (perm_of_split split).mem_iff.mpr (List.mem_cons_of_mem t other)
    have owns : x.owns u.number = true := by
      refine List.any_eq_true.mpr ⟨u, there, ?_⟩
      rw [at_stage, Process.owned?, Stage.owned?_of_hasLooked looked]
      simp
    have distinct : t.number ≠ u.number := by
      have front := Coherent.perm coherent (perm_of_split split)
      intro same
      exact (List.nodup_cons.mp front.nodup).1 (List.mem_map.mpr ⟨u, other, same.symm⟩)
    have bystander := alters_of_owns orderly split free owns distinct
    exact (Spares.process answer bystander safe).saved (saved u there stage at_stage) there
      at_stage c would
  · obtain ⟨number, process, reply⟩ := t
    rw [at_stage] at led
    obtain ⟨first, rfl⟩ := Process.manager_of_resume led
    have there : (⟨number, .manager first, reply⟩ : Errand) ∈ x.errands :=
      split ▸ List.mem_append_right _ List.mem_cons_self
    have next := Stage.saved_next (Process.resume_manager_inl.mp led)
      (saved _ there first rfl)
    rw [← Ensemble.session_manager] at next
    exact next
  · rw [at_stage] at fresh
    cases stage with
    | called op => exact fun c would => by cases would
    | _ => cases fresh

theorem step (saved : x.Saved) (coherent : x.IsCoherent) {fits : Process → Prop}
    {Inv : Session → Option Stage → Prop} (orderly : Ensemble.Orderly fits Inv x.ensemble)
    {m : Move} (spares : x.sparesChanges m = true) : (x.step m).Saved := by
  -- who has a reply is where it was
  have replied {before after : List Errand} {t : Errand} {reply : Option t.process.need.Answer}
      (split : x.errands = before ++ t :: after) :
      ∀ u ∈ before ++ ⟨t.number, t.process, reply⟩ :: after, ∀ stage,
        u.process = .manager stage → x.session.Saved stage := by
    intro u hu stage at_stage
    obtain ⟨v, hv, -, same⟩ := mem_replied hu
    exact saved v (split ▸ hv) stage (same.trans at_stage)
  cases m with
  | deed d =>
    intro u hu stage at_stage
    rcases List.mem_append.mp hu with there | new
    · exact (Spares.deed spares).saved (saved u there stage at_stage) there at_stage
    · obtain ⟨j, hj, rfl⟩ := List.mem_mapIdx.mp new
      generalize ((d.apply x.session).started[j]) = work at at_stage
      cases work <;> cases at_stage
  | enter p =>
    simp only [Traffic.step]
    split
    · next call =>
      intro u hu stage at_stage
      rcases List.mem_append.mp hu with there | new
      · exact saved u there stage at_stage
      · obtain rfl := List.mem_singleton.mp new
        obtain rfl : p = .manager stage := at_stage
        cases stage with
        | called op => exact fun c would => by cases would
        | _ => cases call
    · exact saved
  | others store => exact saved
  | carryOut i =>
    rcases x.carryOut_cases i with same | ⟨before, after, t, store, reply, -, split, -, -, same⟩
    · rwa [Traffic.step, same]
    · rw [Traffic.step, same]
      exact replied split
  | answer i oracle =>
    obtain ⟨e, does⟩ := x.step_does (.answer i oracle)
    generalize x.step (.answer i oracle) = y at does ⊢
    cases does with
    | nothing => exact saved
    | answers _ _ split => exact replied split
  | go i oracle =>
    rcases x.go_cases i oracle with same | ⟨before, after, t, answer, found, split, free, -, same⟩
    · rwa [Traffic.step, same]
    · rw [Traffic.step, same]
      refine saved.resumed coherent orderly split free ?_
      simpa [sparesChanges, found] using spares

end Saved

theorem saved_run (config : Settings) (store : MemoryStore) {moves : List Move}
    (spares : (start (.create config) store).throughout sparesChanges moves = true) :
    ((start (.create config) store).run moves).Saved := by
  induction moves using List.reverseRecOn with
  | nil => exact fun t ht => absurd ht List.not_mem_nil
  | append_singleton moves m ih =>
    rw [throughout_concat] at spares
    obtain ⟨earlier, last⟩ := Bool.and_eq_true_iff.mp spares
    rw [run_concat]
    exact (ih earlier).step (coherent_run _ store moves) (twinBooks_run config store moves) last

end Traffic

/-- **A call that has looked has found no unsaved changes**, in this same call. -/
theorem Course.looked {n : Nat} {h : List Event} {o : Option Errand} (course : Course n h o)
    {source target : String} : ∀ t ∈ o, ∀ stage, t.process = .manager stage →
      stage.hasLooked source target →
      ∃ s, .stepped n (.manager (.updating (.renameFile source target))) () s ∈ h ∧
        s.manager.tracked.any
          (Manager.isDisplacedUnsaved s target (Manager.modelsAt s source)) = false := by
  induction course with
  | enters fresh =>
    rintro _ ⟨⟩ stage rfl looked
    cases stage with
    | called op => exact absurd looked id
    | _ => cases fresh
  | carries before done ih =>
    rintro _ ⟨⟩ stage at_stage looked
    obtain ⟨s, there, clean⟩ := ih _ rfl stage at_stage looked
    exact ⟨s, List.mem_append_left _ there, clean⟩
  | answers reply before ih =>
    rintro _ ⟨⟩ stage at_stage looked
    obtain ⟨s, there, clean⟩ := ih _ rfl stage at_stage looked
    exact ⟨s, List.mem_append_left _ there, clean⟩
  | @goes h t oracle answer before ready s ih =>
    intro u hu q hq looked
    obtain ⟨number, process, reply⟩ := t
    obtain ⟨stage, rfl⟩ :=
      Process.manager_of_resume ((Errand.of_mem_next? hu).2.1.trans (by rw [hq]))
    have next := Stage.next_of_mem hu hq
    rcases Stage.of_goesOn_hasLooked (Stage.goesOn_of_resume next) looked with rfl | earlier
    · exact ⟨s, List.mem_append_right _ List.mem_cons_self, (Stage.look next).1⟩
    · obtain ⟨s₀, there, clean⟩ := ih _ rfl stage rfl earlier
      exact ⟨s₀, List.mem_append_left _ there, clean⟩

namespace Traffic

/-- **Moving a file spares unsaved changes at its target** that are there when the call looks for
them, and those that are made later if nobody makes any where the call is going to close.

A call that finds a context with unsaved changes at the target, of a model factory that comes there,
is refused and changes nothing.  Every call that closes a context has looked before, and has found
none.  And if no move of the run endangers changes, then no context that is closed has any, whatever
else is edited, moved, loaded and saved meanwhile, and however long the store takes. -/
theorem rename_spares_changes (config : Settings) (store : MemoryStore) (moves : List Move)
    (n : Nat) (source target : String) :
    let x := (start (.create config) store).run moves
    (∀ s, .stepped n (.manager (.updating (.renameFile source target))) () s ∈ x.log →
      s.manager.tracked.any
        (Manager.isDisplacedUnsaved s target (Manager.modelsAt s source)) = true →
      (Process.manager (.updating (.renameFile source target))).resume s () =
        (s, .inr (.manager (.error (.unsavedTarget target))))) ∧
    ∀ before first rest s after, x.log = before ++
      .stepped n (.manager (.closing first rest (.follow source target))) () s :: after →
      (∃ s₀, .stepped n (.manager (.updating (.renameFile source target))) () s₀ ∈ before ∧
        s₀.manager.tracked.any
          (Manager.isDisplacedUnsaved s₀ target (Manager.modelsAt s₀ source)) = false) ∧
      ((start (.create config) store).throughout sparesChanges moves = true →
        (s.context first.context).isUnsaved = false) := by
  intro x
  refine ⟨fun s _ unsaved => ?_, fun before first rest s after log => ⟨?_, fun spares => ?_⟩⟩
  · simp only [Process.resume, Stage.resume, Manager.update, Manager.beginMove, unsaved, if_true,
      Manager.fail]
  · obtain ⟨_, _, course, -⟩ := course_of_log log
    obtain ⟨s₀, there, clean⟩ := course.looked _ rfl _ rfl ⟨rfl, rfl⟩
    exact ⟨s₀, List.mem_of_mem_filter there, clean⟩
  · obtain ⟨earlier, m, later, rfl, -, does⟩ := eq_of_log rfl log
    rw [throughout_append, Bool.and_eq_true] at spares
    have saved := saved_run config store spares.1
    generalize ((start (.create config) store).run earlier).step m = y at does
    generalize he : some (Event.stepped n
      (.manager (.closing first rest (.follow source target))) () s) = e at does
    cases does with
    | @goes i oracle front back t answer split =>
      obtain ⟨number, process, reply⟩ := t
      simp only [Option.some.injEq, Event.stepped.injEq] at he
      obtain ⟨-, rfl, -, rfl⟩ := he
      have there := saved _ (split ▸ List.mem_append_right _ List.mem_cons_self) _ rfl
      exact Stage.saved_closing.mp there first List.mem_cons_self
    | _ => cases he

/-- The host has edited the document of a context. -/
def writes (c : ContextId) (text : String) : Move := .deed (.setModel c ⟨.text text, true, false⟩)

/-- One document is at the source of a move and two are at its target, and the store is asked to
move the file. -/
def asksForMove : List Move :=
  opensAtBoth ++ .call (.renameFile "a" "b") :: goes 0 2

/-- Meanwhile the document that moves is edited, and so is the one at the target that is of another
model factory; the store replies, and the call closes what is in its way. -/
def editsElsewhere : List Move :=
  asksForMove ++ writes 0 "mine" :: writes 2 "mine" :: .answer 0 .obliging :: goes 0 1

theorem rename_spares_changes_editsElsewhere :
    let x := (start quietSession {}).run editsElsewhere
    let y := x.step (.go 0 .obliging)
    (start quietSession {}).throughout sparesChanges (editsElsewhere ++ [.go 0 .obliging]) = true ∧
      x.session.contexts.map (·.isUnsaved) = [true, false, true] ∧
      (y.log.filterMap Event.returned?).getLast? = some .renamed ∧
      (y.session.contexts.map fun c => (c.path, c.isDisposed, c.isUnsaved)) =
        [("b", false, true), ("b", true, false), ("b", false, true)] ∧
      ∀ before first rest s after, y.log = before ++
        .stepped 6 (.manager (.closing first rest (.follow "a" "b"))) () s :: after →
        (s.context first.context).isUnsaved = false := by
  intro x y
  have spares : (start quietSession {}).throughout sparesChanges
      (editsElsewhere ++ [.go 0 .obliging]) = true := by decide +kernel
  refine ⟨spares, by decide +kernel, by decide +kernel, by decide +kernel, ?_⟩
  intro before first rest s after log
  have whole : y = (start quietSession {}).run (editsElsewhere ++ [.go 0 .obliging]) :=
    (run_concat _ _ _).symm
  rw [whole] at log
  exact ((rename_spares_changes { autosave := { enabled := false } } {} _ 6 "a" "b").2
    before first rest s after log).2 spares

/-- **Changes at the target are lost** that are made while the store moves the file.  The call has
found none when it looked; the document at the target, of the model factory that comes there, is
edited before the store replies.  The call succeeds, and the document is closed with its changes. -/
theorem rename_discards_changes :
    let x := (start quietSession {}).run asksForMove
    let y := x.step (writes 1 "mine")
    let z := y.run (.answer 0 .obliging :: goes 0 2)
    x.session.contexts.map (·.isUnsaved) = [false, false, false] ∧
      (x.session.contexts.map fun c => (c.path, c.modelFactory)) =
        [("a", "text"), ("b", "text"), ("b", "script")] ∧
      y.session.contexts.map (·.isUnsaved) = [false, true, false] ∧
      (z.log.filterMap Event.returned?).getLast? = some .renamed ∧
      z.session.manager.tracked.map (·.context) = [0, 2] ∧
      (z.session.context 1).isDisposed = true ∧
      (z.session.context 1).model = ⟨.text "mine", true, false⟩ := by
  decide +kernel

end Traffic

end Folio
