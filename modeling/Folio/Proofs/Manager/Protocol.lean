/-
# The stages of a call, one after the other

Which stage of a call of the manager can follow which, whatever the session is and whatever the call
gets.  `Stage.goesOn` reads this off the program once; what is shown about all stages of one kind of
call (closing a widget, moving a file, deleting one) is read off `goesOn`.
-/
import Folio.Proofs.Ensemble.Owner

namespace Folio

namespace Stage

/-- The stage with which a call begins on a manager that is not disposed. -/
def entry : ManagerOp → Stage → Prop
  | .open path _ hint, q => ∃ widget model, q = .updating (.open path widget model hint)
  | .create path _ hint, q => ∃ widget model, q = .updating (.create path widget model hint)
  | .find path _, q => ∃ widget model, q = .finding path widget model none
  | .reveal path factory hint, q =>
    (∃ widget model, q = .finding path widget model (some ⟨path, factory, hint⟩)) ∨
      q = .called (.open path factory hint)
  | .contextFor widget, q => q = .readingBindings (.contextFor widget)
  | .widgetsFor path, q => q = .readingBindings (.widgetsFor path)
  | .openContexts, q => q = .reading .openContexts
  | .autosaveFor c, q => q = .reading (.autosaveFor c)
  | .closeWidget widget, q => q = .updating (.closeWidget widget false)
  | .closeFile path, q => q = .updating (.closeFile path false)
  | .closeAll, q => q = .updating (.closeAll false)
  | .renameFile source target, q => q = .updating (.renameFile source target)
  | .deleteFile path, q => q = .updating (.closeFile path true)
  | .setAutosave enabled, q => q = .reading (.setAutosave enabled)
  | .setInterval interval, q => q = .reading (.setInterval interval)
  | .dispose, q => q = .updating (.closeAll true)

/-- The stage is one of closing contexts, or of what follows when they are closed. -/
def closesFor (after : AfterClosing) : Stage → Prop
  | .closing _ _ a => a = after
  | .binding _ _ => (∃ path widget model hint, after = .open path widget model hint) ∨
      ∃ path widget model hint, after = .create path widget model hint
  | .deleting path => after = .delete path
  | .clearing last => after = .clear last
  | _ => False

/-- The call opens what it did not find. -/
def opens (otherwise : Option Wanted) (q : Stage) : Prop :=
  ∃ w, otherwise = some w ∧ q = .called (.open w.path w.factory w.hint)

/-- **The stages that can follow a stage.** -/
def goesOn : Stage → Stage → Prop
  | .called op, q => entry op q
  | .updating (.open path widget model hint), q => q.closesFor (.open path widget model hint)
  | .updating (.create path widget model hint), q => q.closesFor (.create path widget model hint)
  | .updating (.closeWidget widget confirmed), q => q = .unbinding widget confirmed
  | .updating (.closeFile path delete), q =>
    q.closesFor (if delete then .delete path else .finish .done)
  | .updating (.closeAll last), q => q.closesFor (.clear last)
  | .updating (.renameFile source target), q => ∃ models, q = .moving source target models
  | .finding _ widget _ otherwise, q =>
    (∃ c, q = .searching c widget otherwise) ∨ opens otherwise q
  | .searching _ _ otherwise, q => opens otherwise q
  | .closing _ _ after, q => q.closesFor after
  | .unbinding widget confirmed, q =>
    (confirmed = false ∧ q = .confirming widget) ∨ ∃ t, q = .closing t [] (.finish (.closed true))
  | .confirming widget, q => q = .updating (.closeWidget widget true)
  | .moving source target _, q => q.closesFor (.follow source target)
  | .reading _, _ => False
  | .readingBindings _, _ => False
  | .binding _ _, _ => False
  | .clearing _, _ => False
  | .deleting _, _ => False

end Stage

namespace Manager

variable {s : Session} {q : Stage}

theorem entry_of_begin {op : ManagerOp} (h : (begin s op).2 = .inl q) : Stage.entry op q := by
  cases op with
  | «open» path name hint =>
    simp only [begin] at h
    split at h <;> cases h
    exact ⟨_, _, rfl⟩
  | create path name hint =>
    simp only [begin] at h
    split at h <;> cases h
    exact ⟨_, _, rfl⟩
  | find path name =>
    simp only [begin] at h
    split at h <;> cases h
    exact ⟨_, _, rfl⟩
  | reveal path name hint =>
    simp only [begin] at h
    split at h <;> cases h
    · exact .inl ⟨_, _, rfl⟩
    · exact .inr rfl
  | _ =>
    cases h
    rfl

theorem closesFor_of_afterClosing {after : AfterClosing} (h : (afterClosing s after).2 = .inl q) :
    q.closesFor after := by
  cases after with
  | «open» path widget model hint =>
    simp only [afterClosing, openNow] at h
    split at h <;> cases h <;> exact .inl ⟨_, _, _, _, rfl⟩
  | create path widget model hint =>
    cases h
    exact .inr ⟨_, _, _, _, rfl⟩
  | delete path =>
    cases h
    rfl
  | clear last =>
    cases h
    rfl
  | follow source target => cases h
  | finish r => cases h

theorem closesFor_of_retireEach {closing : List Tracked} {after : AfterClosing}
    (h : (retireEach s closing after).2 = .inl q) : q.closesFor after := by
  cases closing with
  | nil => exact closesFor_of_afterClosing h
  | cons t rest =>
    cases h
    rfl

theorem opens_of_notFound {otherwise : Option Wanted} (h : (notFound s otherwise).2 = .inl q) :
    Stage.opens otherwise q := by
  cases otherwise with
  | none => cases h
  | some w =>
    cases h
    exact ⟨w, rfl, rfl⟩

/-- **What follows when a widget is to be taken out**: the host is asked, which it is not twice, or
the context is closed alone. -/
theorem goesOn_of_unbind {widget : WidgetId} {confirmed : Bool}
    (h : (unbind s widget confirmed).2 = .inl q) : (Stage.unbinding widget confirmed).goesOn q := by
  unfold unbind at h
  split at h
  · cases h
  · simp only at h
    split at h
    · next asks =>
      cases h
      cases confirmed with
      | false => exact .inl ⟨rfl, rfl⟩
      | true => simp at asks
    · split at h
      · cases h
      · split at h
        · cases h
        · cases h
          exact .inr ⟨_, rfl⟩

end Manager

open Manager in
/-- **Every stage is followed by one of these**, if the call does not end. -/
theorem Stage.goesOn_of_resume {s : Session} {stage q : Stage} {answer : stage.need.Answer}
    (h : (stage.resume s answer).2 = .inl q) : stage.goesOn q := by
  cases stage with
  | called op =>
    simp only [resume] at h
    split at h
    · cases op <;> cases h
    · exact entry_of_begin h
  | updating update =>
    cases update with
    | closeWidget widget confirmed =>
      cases h
      rfl
    | renameFile source target =>
      simp only [resume, Manager.update, beginMove] at h
      split at h
      · cases h
      · cases h
        exact ⟨_, rfl⟩
    | «open» path widget model hint => exact closesFor_of_retireEach h
    | create path widget model hint => exact closesFor_of_retireEach h
    | closeFile path delete => exact closesFor_of_retireEach h
    | closeAll last => exact closesFor_of_retireEach h
  | reading query => cases query <;> cases h
  | finding path widget model otherwise =>
    simp only [resume] at h
    split at h
    · cases h
      exact .inl ⟨_, rfl⟩
    · exact .inr (opens_of_notFound h)
  | searching c widget otherwise =>
    simp only [resume] at h
    split at h
    · cases h
    · exact opens_of_notFound h
  | readingBindings query => cases query <;> cases h
  | closing t rest after => exact closesFor_of_retireEach h
  | binding w c => cases h
  | unbinding widget confirmed => exact goesOn_of_unbind h
  | confirming widget =>
    simp only [resume] at h
    split at h <;> cases h
    rfl
  | clearing last => cases h
  | moving source target models =>
    cases answer with
    | error e => cases h
    | ok m => exact closesFor_of_retireEach h
  | deleting path => cases answer <;> cases h

namespace Stage

variable {p : Stage}

/-- **A call is not called again**, except to open what it did not find. -/
theorem open_of_goesOn_called {op : ManagerOp} (next : p.goesOn (.called op)) :
    ∃ path factory hint, op = .open path factory hint := by
  cases p with
  | called first =>
    cases first <;> simp [goesOn, entry] at next
    exact ⟨_, _, _, next⟩
  | updating update => cases update <;> simp [goesOn, closesFor] at next
  | finding path widget model otherwise =>
    rcases next with ⟨c, same⟩ | ⟨w, -, same⟩
    · cases same
    · cases same
      exact ⟨_, _, _, rfl⟩
  | searching c widget otherwise =>
    obtain ⟨w, -, same⟩ := next
    cases same
    exact ⟨_, _, _, rfl⟩
  | unbinding w confirmed => simp [goesOn] at next
  | confirming w => cases next
  | _ => exact absurd next id

/-- **A call waits for the contexts**, to change them, when it has been called or the host has
agreed. -/
theorem of_goesOn_updating {update : ContextUpdate} (next : p.goesOn (.updating update)) :
    (∃ op, p = .called op ∧ entry op (.updating update)) ∨
      ∃ w, p = .confirming w ∧ update = .closeWidget w true := by
  cases p with
  | called op => exact .inl ⟨op, rfl, next⟩
  | confirming w =>
    cases next
    exact .inr ⟨w, rfl, rfl⟩
  | updating first => cases first <;> simp [goesOn, closesFor] at next
  | finding path widget model otherwise => simp [goesOn, opens] at next
  | searching c widget otherwise => simp [goesOn, opens] at next
  | unbinding w confirmed => simp [goesOn] at next
  | _ => exact absurd next id

end Stage

/-! ## Processes -/

/-- Only a call of the manager goes on as one, and what it does is what its stage does. -/
theorem Process.manager_of_resume {s : Session} {p : Process} {answer : p.need.Answer} {q : Stage}
    (h : (p.resume s answer).2 = .inl (.manager q)) : ∃ stage, p = .manager stage := by
  cases goesOn h
  exact ⟨_, rfl⟩

/-- A call of the manager only goes on as one. -/
theorem Process.exists_stage_of_resume {stage : Stage} {answer : stage.need.Answer} {s : Session}
    {p : Process} (h : ((Process.manager stage).resume s answer).2 = .inl p) :
    ∃ q, p = .manager q := by
  cases Process.goesOn h
  exact ⟨_, rfl⟩

theorem Process.resume_manager_inl {s : Session} {stage q : Stage} {answer : stage.need.Answer} :
    ((Process.manager stage).resume s answer).2 = .inl (.manager q) ↔
      (stage.resume s answer).2 = .inl q := by
  simp only [Process.resume]
  split <;> (next hr => simp [hr])

theorem Process.resume_manager_inr {s : Session} {stage : Stage} {answer : stage.need.Answer}
    {result : ManagerResult} :
    ((Process.manager stage).resume s answer).2 = .inr (.manager result) ↔
      (stage.resume s answer).2 = .inr result := by
  simp only [Process.resume]
  split <;> (next hr => simp [hr])

end Folio
