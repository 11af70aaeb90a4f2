/-
# Where contexts are

A context is moved by an operation of its own, by the host, or by the manager when it renames a
file.  If the first two do not happen, then whatever a bystander does, and whatever the host does,
leaves every context at its path.  Neither takes a context into use.

`Session.Narrows` says this of two sessions, and adds that the session advances.  Taking contexts
out of use and closing them is of this kind as well.
-/
import Folio.Proofs.Ensemble.Advance

namespace Folio

/-! ## 1. What moves a context -/

/-- The operation moves its context. -/
def ContextOp.moves : ContextOp → Bool
  | .rename _ => true
  | _ => false

/-- The operation in progress moves its context. -/
def ContextCall.moves : ContextCall → Bool
  | .renaming _ _ => true
  | _ => false

/-- The process moves a context by itself, past the manager. -/
def Process.movesContext : Process → Bool
  | .operation _ op => op.moves
  | .calling _ call => call.moves
  | .loading _ call => call.moves
  | _ => false

/-- The host moves a context by itself. -/
def Deed.movesContext : Deed → Bool
  | .followMove _ _ => true
  | _ => false

/-- The move moves a context past the manager, or lets something in that does. -/
def Move.movesContext : Move → Bool
  | .deed d => d.movesContext
  | .enter p => p.movesContext
  | .go _ _ => false

theorem ContextCall.moves_of_again {c d : Context} {call next : ContextCall}
    {reply : call.request.Reply} (h : ContextCall.resume c call reply = (d, .again next)) :
    next.moves = false := by
  obtain ⟨path, rfl⟩ := exists_reverting_of_again h
  rfl

/-- A process that does not move a context does not go on as one that does. -/
theorem Process.movesContext_continues {s : Session} {p next : Process} {answer : p.need.Answer}
    (stays : p.movesContext = false) (h : (p.resume s answer).2 = .inl next) :
    next.movesContext = false := by
  cases goesOn h with
  | @begins c op call begun =>
    obtain ⟨-, rfl⟩ := ContextOp.of_begin begun
    cases op with
    | rename target => cases stays
    | populate isNew => cases isNew <;> rfl
    | _ => rfl
  | again again => exact ContextCall.moves_of_again again
  | @loads k isNew call begun =>
    obtain ⟨-, rfl⟩ := ContextOp.of_begin begun
    cases isNew <;> rfl
  | loadsAgain again => exact ContextCall.moves_of_again again
  | _ => rfl

/-! ## 2. Looks that last -/

/-- **A look at a context that lasts**: neither an answer of the store to a save or a reload changes
it, nor the end of the first load. -/
structure Context.Lasting {α : Type} (looks : Context → α) : Prop where
  settle : ∀ (c : Context) (result : Except ContextError Unit), looks (c.settle result) = looks c
  afterSave : ∀ (c : Context) (reply : Except StoreError Metadata),
    looks (c.afterSave reply).1 = looks c
  afterRevert : ∀ (c : Context) (path : String) (reply : Except StoreError RemoteFile),
    looks (c.afterRevert path reply).1 = looks c

section Lasting

variable {α : Type} {looks : Context → α}

theorem ContextCall.looks_conclude (lasting : Context.Lasting looks) (first : Bool)
    (outcome : Context × Except ContextError Unit) :
    looks (conclude first outcome).1 = looks outcome.1 := by
  cases first with
  | false => rfl
  | true => exact lasting.settle _ _

/-- An operation keeps a look that lasts, if a move keeps it. -/
theorem ContextCall.looks_resume (lasting : Context.Lasting looks) (c : Context) :
    (call : ContextCall) → (reply : call.request.Reply) →
    (call.moves = true → ∀ (target : String) (reply : Except StoreError Metadata),
      looks (c.afterRename target reply).1 = looks c) →
    looks (resume c call reply).1 = looks c
  | .saving _ _ first, reply, _ =>
    (looks_conclude lasting first _).trans (lasting.afterSave c reply)
  | .reverting path first, reply, _ =>
    (looks_conclude lasting first _).trans (lasting.afterRevert c path reply)
  | .fetching _, _, _ => rfl
  | .renaming _ target, reply, renames => renames rfl target reply
  | .checkpointing _, _, _ => rfl
  | .listing _, _, _ => rfl
  | .restoring _ _, .error _, _ => rfl
  | .restoring _ _, .ok (), _ => by
    simp only [resume]
    split <;> rfl

/-- An attempt keeps a look that lasts. -/
theorem Attempt.looks_resume (lasting : Context.Lasting looks) (s : Scene) :
    (a : Attempt) → (answer : a.need.Answer) →
    looks (Attempt.resume s a answer).1.context = looks s.context
  | .due, () => by
    simp only [Attempt.resume, Attempt.begin, beginSave]
    split
    · rfl
    · split
      · split <;> rfl
      · rfl
  | .checking _, reply => by
    simp only [Attempt.resume, afterCheck, beginSave]
    split
    · split <;> rfl
    · split
      · split <;> rfl
      · split <;> rfl
  | .asking _, answer => by
    cases answer with
    | cancel => rfl
    | revert => simp only [Attempt.resume, afterAnswer]; split <;> rfl
    | overwrite => simp only [Attempt.resume, afterAnswer, beginSave]; split <;> rfl
  | .reverting path, reply => lasting.afterRevert s.context path reply
  | .saving _ _ _, .error _ => rfl
  | .saving _ _ _, .ok m => lasting.afterSave s.context (.ok m)

end Lasting

namespace Context

theorem path_dispose (c : Context) : c.dispose.path = c.path := by
  unfold dispose
  split <;> rfl

/-- The path of a context lasts. -/
theorem lasting_path : Lasting Context.path where
  settle c result := by
    obtain ⟨state, events, same⟩ := c.settle_eq result
    rw [same]
  afterSave c reply := by cases reply <;> rfl
  afterRevert c path reply := by
    rcases c.afterRevert_cases path reply with ⟨e, failed⟩ | ⟨file, model, -, done⟩
    · rw [failed]
    · rw [done]
      rfl

end Context

namespace Session

/-- **A session narrows** to another: contexts may go out of use, none comes into use, and all stay
where they are. -/
structure Narrows (s t : Session) : Prop extends s.Advances t where
  tracked : t.manager.tracked.Sublist s.manager.tracked
  path : ∀ c < s.contexts.length, (t.context c).path = (s.context c).path

namespace Narrows

/-- Whatever keeps the contexts and the coordinators, and takes into use none. -/
theorem of_eq {s t : Session} (contexts : t.contexts = s.contexts)
    (coordinators : t.coordinators = s.coordinators)
    (tracked : t.manager.tracked.Sublist s.manager.tracked) : s.Narrows t where
  toAdvances := .of_eq contexts coordinators
  tracked := tracked
  path c _ := by rw [Session.context, contexts, Session.context]

theorem refl (s : Session) : s.Narrows s := of_eq rfl rfl (List.Sublist.refl _)

theorem trans {s t u : Session} (h : s.Narrows t) (h' : t.Narrows u) : s.Narrows u where
  toAdvances := h.toAdvances.trans h'.toAdvances
  tracked := h'.tracked.trans h.tracked
  path c hc := (h'.path c (Nat.lt_of_lt_of_le hc h.contexts_length)).trans (h.path c hc)

/-- A session whose books stay as they are. -/
theorem of_leavesBooks {s t : Session} (h : s.LeavesBooks t)
    (path : ∀ c < s.contexts.length, (t.context c).path = (s.context c).path) : s.Narrows t where
  toAdvances := h.advances
  tracked := h.tracked ▸ List.Sublist.refl _
  path := path

end Narrows

/-- Replacing a context by one that looks the same leaves the looks of all. -/
theorem looks_setContext {α : Type} (looks : Context → α) {s : Session} {c : ContextId}
    {context : Context} (h : looks context = looks (s.context c)) (d : ContextId) :
    looks ((s.setContext c context).context d) = looks (s.context d) := by
  by_cases hdc : d = c
  · subst hdc
    by_cases hd : d < s.contexts.length
    · rw [context_setContext context hd, h]
    · have same : s.contexts.set d context = s.contexts :=
        List.set_eq_of_length_le (Nat.le_of_not_lt hd)
      rw [Session.context, setContext, same, Session.context]
  · rw [context_setContext_of_ne context hdc]

/-- Replacing a context by one at the same path leaves all where they are. -/
theorem path_setContext {s : Session} {c : ContextId} {context : Context}
    (h : context.path = (s.context c).path) (d : ContextId) :
    ((s.setContext c context).context d).path = (s.context d).path :=
  looks_setContext Context.path h d

/-- **A bystander keeps a look that lasts**, if a move keeps it. -/
theorem looks_process {α : Type} {looks : Context → α} (lasting : Context.Lasting looks)
    {s : Session} {p : Process}
    (renames : p.movesContext = true → ∀ (c : Context) (target : String)
      (reply : Except StoreError Metadata), looks (c.afterRename target reply).1 = looks c)
    (answer : p.need.Answer) (bystander : p.alters = false) (c : ContextId) :
    looks ((p.resume s answer).1.context c) = looks (s.context c) := by
  by_cases conducts : ∃ stage, p = .manager stage
  · obtain ⟨stage, rfl⟩ := conducts
    have contexts := (LeavesContexts.stage s stage answer bystander).contexts
    simp only [Process.resume]
    split <;> (next h => rw [h] at contexts; rw [Session.context, contexts, Session.context])
  · have makes := p.makes s answer (not_exists.mp conducts)
    generalize (p.resume s answer).1 = t at makes ⊢
    cases makes with
    | called d call reply =>
      exact looks_setContext looks
        (ContextCall.looks_resume lasting _ call reply fun moves => renames moves _) c
    | loads k call reply =>
      exact looks_setContext looks
        (ContextCall.looks_resume lasting _ call reply fun moves => renames moves _) c
    | starts k call reply =>
      rw [Session.context, contexts_startCoordinator]
      exact looks_setContext looks
        (ContextCall.looks_resume lasting _ call reply fun moves => renames moves _) c
    | acts k a given =>
      exact looks_setContext looks (Attempt.looks_resume lasting (s.scene k) a given) c
    | _ => rfl

/-- **A bystander that does not move contexts** leaves all of them where they are. -/
theorem path_process (s : Session) (c : ContextId) (p : Process) (answer : p.need.Answer)
    (stays : p.movesContext = false) (bystander : p.alters = false) :
    ((p.resume s answer).1.context c).path = (s.context c).path :=
  looks_process Context.lasting_path (fun moves => absurd (stays.symm.trans moves) (by decide))
    answer bystander c

namespace Narrows

theorem process (s : Session) (p : Process) (answer : p.need.Answer)
    (stays : p.movesContext = false) (bystander : p.alters = false) :
    s.Narrows (p.resume s answer).1 :=
  of_leavesBooks (LeavesBooks.process s p answer bystander) fun c _ =>
    path_process s c p answer stays bystander

/-- What the host does, if it is not to move a context. -/
theorem deed (s : Session) : (d : Deed) → d.movesContext = false → s.Narrows (d.apply s)
  | .setRegistry registry, _ => of_leavesBooks (.deed s (.setRegistry registry) rfl) fun _ _ => rfl
  | .setClock now, _ => of_leavesBooks (.deed s (.setClock now) rfl) fun _ _ => rfl
  | .setModel d model, _ =>
    of_leavesBooks (.deed s (.setModel d model) rfl) fun c _ => by
      have stays : ({ s.context d with model } : Context).path = (s.context d).path := rfl
      exact path_setContext stays c
  | .disposeContext d, _ =>
    of_leavesBooks (.deed s (.disposeContext d) rfl) fun c _ =>
      path_setContext (Context.path_dispose _) c
  | .startCoordinator k, _ =>
    of_leavesBooks (.deed s (.startCoordinator k) rfl) fun c _ => by
      rw [Deed.apply, context_startCoordinator]
  | .stopCoordinator k, _ => of_leavesBooks (.deed s (.stopCoordinator k) rfl) fun _ _ => rfl
  | .setInterval k interval, _ =>
    of_leavesBooks (.deed s (.setInterval k interval) rfl) fun _ _ => rfl
  | .disposeWidget w, _ => by
    cases w <;> exact of_eq rfl rfl (List.Sublist.refl _)
  | .newContext path modelFactory contentType kind, _ => {
    toAdvances := .addContext s _
    tracked := List.Sublist.refl _
    path := fun c hc => by rw [Deed.apply, context_addContext_of_lt _ hc] }
  | .newCoordinator d interval, _ => {
    toAdvances := .addCoordinator s _
    tracked := List.Sublist.refl _
    path := fun _ _ => rfl }

theorem setTracked {s : Session} {tracked : List Tracked}
    (h : tracked.Sublist s.manager.tracked) : s.Narrows (s.setTracked tracked) := of_eq rfl rfl h

theorem setBindings (s : Session) (bindings : List Binding) :
    s.Narrows (s.setBindings bindings) := of_eq rfl rfl (List.Sublist.refl _)

theorem newWidget (s : Session) (widget : WidgetFactory) (c : ContextId)
    (hint : Option OpenHint) : s.Narrows (s.newWidget widget c hint).1 :=
  of_eq rfl rfl (List.Sublist.refl _)

theorem retireWidget (s : Session) (w : WidgetId) : s.Narrows (s.retireWidget w) := by
  cases w <;> exact of_eq rfl rfl (List.Sublist.refl _)

/-- Closing a context that is no longer in use. -/
theorem retireContext (s : Session) (t : Tracked) : s.Narrows (s.retireContext t) := by
  rw [retireContext_eq]
  have unbound : s.Narrows (s.withdraw t.context) :=
    (setBindings s _).trans
      (foldl_related refl trans (fun s (b : Binding) => retireWidget s b.widget) _ _)
  refine (unbound.trans (of_leavesBooks (.stopCoordinator _ t.coordinator) fun _ _ => rfl)).trans ?_
  exact of_leavesBooks (.setContext (.dispose _)) fun c _ =>
    path_setContext (Context.path_dispose _) c

end Narrows

end Session

end Folio
