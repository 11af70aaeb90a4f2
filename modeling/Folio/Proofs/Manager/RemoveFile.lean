/-
# Moving and deleting files while they are saved

A call that moves or deletes a file returns once the store has done so.  It does not wait for the
saves that are in flight, and a save goes to the path that its context had when the save was begun.
So a file may come back at its old path after the call has returned
(`Traffic.file_comes_back`).

What holds is that nothing else brings it back (`Traffic.comes_back_only_by_saves`).  The call
returns only after the store has moved or deleted the file, and since then the old path holds what
the last save of it has brought, and no file if there was none.  A file that was moved is at the
target, as the last save before the move has left it.  And saves that the store carries out where no
live context is any more were begun before.
-/
import Folio.Proofs.Manager.OneContext
import Folio.Proofs.Traffic.Calls
import Folio.Proofs.Traffic.Contents
import Folio.Proofs.Traffic.Saves

namespace Folio

/-! ## 1. The stages of the calls -/

namespace Stage

/-- The stages of a call that moves a file. -/
def movesFile (source target : String) : Stage → Prop
  | .called op => op = .renameFile source target
  | .updating update => update = .renameFile source target
  | .moving s t _ => s = source ∧ t = target
  | .closing _ _ after => after = .follow source target
  | _ => False

/-- The stages of a call that deletes a file. -/
def deletesFile (path : String) : Stage → Prop
  | .called op => op = .deleteFile path
  | .updating update => update = .closeFile path true
  | .closing _ _ after => after = .delete path
  | .deleting p => p = path
  | _ => False

variable {source target path : String} {p q : Stage}

theorem movesFile_of_closesFor (h : q.closesFor (.follow source target)) :
    q.movesFile source target := by
  cases q with
  | closing t rest after => exact h
  | binding w c => obtain ⟨_, _, _, _, h⟩ | ⟨_, _, _, _, h⟩ := h <;> cases h
  | deleting path => cases h
  | clearing last => cases h
  | _ => exact absurd h id

/-- A call that moves a file stays at its stages. -/
theorem movesFile_of_goesOn (kind : p.movesFile source target) (next : p.goesOn q) :
    q.movesFile source target := by
  cases p with
  | called op =>
    obtain rfl : op = _ := kind
    obtain rfl : q = _ := next
    rfl
  | updating update =>
    obtain rfl : update = _ := kind
    obtain ⟨models, rfl⟩ := next
    exact ⟨rfl, rfl⟩
  | moving s t models =>
    obtain ⟨rfl, rfl⟩ := kind
    exact movesFile_of_closesFor next
  | closing t rest after =>
    obtain rfl : after = _ := kind
    exact movesFile_of_closesFor next
  | _ => exact absurd kind id

theorem deletesFile_of_closesFor (h : q.closesFor (.delete path)) : q.deletesFile path := by
  cases q with
  | closing t rest after => exact h
  | binding w c => obtain ⟨_, _, _, _, h⟩ | ⟨_, _, _, _, h⟩ := h <;> cases h
  | deleting p =>
    cases h
    rfl
  | clearing last => cases h
  | _ => exact absurd h id

/-- A call that deletes a file stays at its stages. -/
theorem deletesFile_of_goesOn (kind : p.deletesFile path) (next : p.goesOn q) :
    q.deletesFile path := by
  cases p with
  | called op =>
    obtain rfl : op = _ := kind
    obtain rfl : q = _ := next
    rfl
  | updating update =>
    obtain rfl : update = _ := kind
    exact deletesFile_of_closesFor next
  | closing t rest after =>
    obtain rfl : after = _ := kind
    exact deletesFile_of_closesFor next
  | deleting p => exact absurd next id
  | _ => exact absurd kind id

/-- **Contexts are closed for a move only after the move.** -/
theorem of_goesOn_follow {t : Tracked} {rest : List Tracked}
    (h : p.goesOn (.closing t rest (.follow source target))) :
    (∃ models, p = .moving source target models) ∨
      ∃ u closing, p = .closing u closing (.follow source target) := by
  cases p with
  | called op => cases op <;> simp [goesOn, entry] at h
  | updating update =>
    cases update with
    | closeFile path delete => cases delete <;> simp [goesOn, closesFor] at h
    | _ => simp [goesOn, closesFor] at h
  | finding path widget model otherwise => simp [goesOn, opens] at h
  | searching c widget otherwise => simp [goesOn, opens] at h
  | closing u closing after =>
    obtain rfl : AfterClosing.follow source target = after := h
    exact .inr ⟨u, closing, rfl⟩
  | unbinding w confirmed => simp [goesOn] at h
  | confirming w => cases h
  | moving s t models =>
    cases h
    exact .inl ⟨models, rfl⟩
  | _ => exact absurd h id

end Stage

/-! ## 2. The end of the calls -/

namespace Manager

variable {s : Session}

/-- Only when all is closed a call that moves a file ends, and then the contexts have followed. -/
theorem followAll_of_retireEach {closing : List Tracked} {source target : String}
    {result : ManagerResult} (h : (retireEach s closing (.follow source target)).2 = .inr result) :
    (retireEach s closing (.follow source target)).1 = followAll s source target := by
  cases closing with
  | nil => rfl
  | cons t rest => cases h

theorem ne_inr_of_retireEach_delete {closing : List Tracked} {path : String}
    {result : ManagerResult} : (retireEach s closing (.delete path)).2 ≠ .inr result := by
  cases closing <;> exact nofun

/-- **Contexts in use follow a file**: none is left at its old path. -/
theorem isAt_followAll {source target : String} (other : source ≠ target) {t : Tracked}
    (ht : t ∈ s.manager.tracked) : (followAll s source target).isAt t source = false := by
  have length : (followAll s source target).contexts.length = s.contexts.length :=
    followAll_keeps (·.contexts.length) (fun _ _ _ => List.length_set) s source target
  by_cases hc : t.context < s.contexts.length
  · have each := Session.context_followEach source target s.manager.tracked s t.context hc
    rw [if_pos (List.mem_map_of_mem ht)] at each
    have followed : (followAll s source target).context t.context =
        Session.followed source target (s.context t.context) := each
    unfold Session.isAt
    simp only [followed, Session.followed]
    split
    · have moved : ((s.context t.context).followMove target).path = target :=
        Session.path_followMove _ _
      simp [moved, Ne.symm other]
    · next notThere => simpa using notThere
  · have none : (followAll s source target).contexts.length ≤ t.context := by
      rw [length]
      exact Nat.le_of_not_lt hc
    have blank : (followAll s source target).context t.context = default := by
      rw [Session.context, List.getElem?_eq_none none, Option.getD_none]
    simp only [Session.isAt, blank]
    rfl

end Manager

/-- **A call that closes contexts for a move has moved the file.** -/
theorem Course.exists_moved {n : Nat} {h : List Event} {o : Option Errand} (course : Course n h o)
    {source target : String} : ∀ t ∈ o, ∀ u rest,
      t.process = .manager (.closing u rest (.follow source target)) →
      ∃ models m s, .stepped n (.manager (.moving source target models)) (.ok m) s ∈ h := by
  induction course with
  | enters fresh =>
    rintro _ ⟨⟩ u rest rfl
    cases fresh
  | @carries h t store store' reply before done ih =>
    rintro _ ⟨⟩ u rest hp
    obtain ⟨models, m, s, hs⟩ := ih t rfl u rest hp
    exact ⟨models, m, s, List.mem_append_left _ hs⟩
  | @answers h t reply before ih =>
    rintro _ ⟨⟩ u rest hp
    obtain ⟨models, m, s, hs⟩ := ih t rfl u rest hp
    exact ⟨models, m, s, List.mem_append_left _ hs⟩
  | @goes h t oracle answer before ready s ih =>
    intro v hv u rest hp
    obtain ⟨number, process, reply⟩ := t
    obtain ⟨stage, rfl⟩ :=
      Process.manager_of_resume ((Errand.of_mem_next? hv).2.1.trans (by rw [hp]))
    have next := Stage.next_of_mem hv hp
    rcases Stage.of_goesOn_follow (Stage.goesOn_of_resume next) with
      ⟨models, rfl⟩ | ⟨w, closing, rfl⟩
    · cases answer with
      | error e => cases next
      | ok m => exact ⟨models, m, s, List.mem_append_right _ List.mem_cons_self⟩
    · obtain ⟨models, m, s', hs'⟩ := ih _ rfl w closing rfl
      exact ⟨models, m, s', List.mem_append_left _ hs'⟩

namespace Traffic

section Returned

variable {session t : Session} {store : MemoryStore} {moves : List Move} {n : Nat} {p : Process}
  {answer : p.need.Answer} {s : Session} {a b : List Event}

/-- **A call that has moved a file** has had the store do it before it returned, and leaves no
context behind that is in use. -/
theorem renamed_of_log (honest : ∀ m ∈ moves, m.isAnswer = false) {source target : String}
    (log : ((start session store).run moves).log = a ++ .stepped n p answer s :: b)
    (began : Began n (.renameFile source target) a)
    (returned : p.resume s answer = (t, .inr (.manager (.ok .renamed)))) :
    (∃ m, .carried n (.store (.rename source target)) (.ok m) ∈ a) ∧
      ∃ u, t = Manager.followAll u source target := by
  obtain ⟨stage, rfl, kind⟩ : ∃ stage, p = .manager stage ∧ stage.movesFile source target :=
    among_of_log Stage.movesFile_of_goesOn rfl log began
  have result : (stage.resume s answer).2 = .inr (.ok .renamed) :=
    Process.resume_manager_inr.mp (congrArg Prod.snd returned)
  have left : (stage.resume s answer).1 = t := by rw [← Ensemble.session_manager, returned]
  cases stage with
  | called op =>
    obtain rfl : op = _ := kind
    simp only [Stage.resume] at result
    split at result <;> cases result
  | updating update =>
    obtain rfl : update = _ := kind
    simp only [Stage.resume, Manager.update, Manager.beginMove] at result
    split at result <;> cases result
  | moving source target models =>
    obtain ⟨rfl, rfl⟩ := kind
    cases answer with
    | error e => cases result
    | ok m =>
      refine ⟨⟨m, carried_of_stepped honest rfl log⟩, ?_⟩
      simp only [Stage.resume, Manager.retireWhere_eq] at result left
      exact ⟨_, left.symm.trans (Manager.followAll_of_retireEach result)⟩
  | closing u rest after =>
    obtain rfl : after = _ := kind
    refine ⟨?_, _, left.symm.trans (Manager.followAll_of_retireEach result)⟩
    obtain ⟨reply, oracle, course, -⟩ := course_of_log log
    obtain ⟨models, m, s', moved⟩ := course.exists_moved _ rfl u rest rfl
    obtain ⟨before, during, rfl⟩ := List.append_of_mem (List.mem_of_mem_filter moved)
    rw [List.append_assoc] at log
    exact ⟨m, List.mem_append_left _ (carried_of_stepped honest rfl log)⟩
  | _ => exact absurd kind id

/-- **A call that has deleted a file** has had the store do it before it returned. -/
theorem deleted_of_log (honest : ∀ m ∈ moves, m.isAnswer = false) {path : String}
    (log : ((start session store).run moves).log = a ++ .stepped n p answer s :: b)
    (began : Began n (.deleteFile path) a)
    (returned : p.resume s answer = (t, .inr (.manager (.ok .deleted)))) :
    .carried n (.store (.delete path)) (.ok ()) ∈ a := by
  obtain ⟨stage, rfl, kind⟩ : ∃ stage, p = .manager stage ∧ stage.deletesFile path :=
    among_of_log Stage.deletesFile_of_goesOn rfl log began
  have result : (stage.resume s answer).2 = .inr (.ok .deleted) :=
    Process.resume_manager_inr.mp (congrArg Prod.snd returned)
  cases stage with
  | called op =>
    obtain rfl : op = _ := kind
    simp only [Stage.resume] at result
    split at result <;> cases result
  | updating update =>
    obtain rfl : update = _ := kind
    simp only [Stage.resume, Manager.update, Manager.retireWhere_eq] at result
    exact absurd result Manager.ne_inr_of_retireEach_delete
  | closing u rest after =>
    obtain rfl : after = _ := kind
    exact absurd result Manager.ne_inr_of_retireEach_delete
  | deleting q =>
    obtain rfl : q = _ := kind
    cases answer with
    | error e => cases result
    | ok u => exact carried_of_stepped honest rfl log
  | _ => exact absurd kind id

end Returned

/-! ## 3. What is at the paths afterwards -/

section Removed

variable {session : Session} {store : MemoryStore} {moves : List Move} {n : Nat}
  {before since : List Event}

/-- **Since a file was moved** its old path holds only what was saved there, and its new path holds
what the file held. -/
theorem holds_of_renamed {source target : String} {m : Metadata} (other : source ≠ target)
    (log : ((start session store).run moves).log =
      before ++ .carried n (.store (.rename source target)) (.ok m) :: since) :
    ((start session store).run moves).Holds source none since ∧
      ∃ moved, ((start session store).run moves).Holds target (some moved) since ∧
        ∀ earlier k request m' later,
          before = earlier ++ .carried k (.store (.save source request)) (.ok m') :: later →
          (∀ e ∈ later, e.spares source) →
          some moved = (lastSaved source later).or (some request.content) := by
  obtain ⟨first, move, y, hbefore, does, holds⟩ := holds_of_log rfl log
  have done : ((start session store).run first).store.rename source target = (y.store, .ok m) :=
    does.perform
  obtain ⟨moved, there⟩ := MemoryStore.exists_content_of_rename done
  have atSource : y.store.content? source = none := by
    rw [MemoryStore.content?_rename done, if_neg other, if_pos rfl]
  have atTarget : y.store.content? target = some moved := by
    rw [MemoryStore.content?_rename done, if_pos rfl, there]
  refine ⟨atSource ▸ holds source, moved, atTarget ▸ holds target, ?_⟩
  rintro earlier k request m' later rfl spared
  rw [← there]
  exact holds_of_saved rfl hbefore spared

/-- **Since a file was deleted** its path holds only what was saved there. -/
theorem holds_of_deleted {path : String}
    (log : ((start session store).run moves).log =
      before ++ .carried n (.store (.delete path)) (.ok ()) :: since) :
    ((start session store).run moves).Holds path none since := by
  obtain ⟨first, move, y, -, does, holds⟩ := holds_of_log rfl log
  have done : ((start session store).run first).store.delete path = (y.store, .ok ()) :=
    does.perform
  have gone : y.store.content? path = none := by
    rw [MemoryStore.content?_delete done, if_pos rfl]
  exact gone ▸ holds path

end Removed

/-- **Files that were moved or deleted come back only by saves.** -/
structure ComesBackOnlyBySaves (x : Traffic) : Prop where
  /-- When a call has moved a file, no context in use is at its old path any more.  The store has
  moved it before the call returned; since then the old path holds only what was saved there, and
  the new one what the last save before has left. -/
  renamed : ∀ n source target a p answer s b t, source ≠ target →
    x.log = a ++ .stepped n p answer s :: b → Began n (.renameFile source target) a →
    p.resume s answer = (t, .inr (.manager (.ok .renamed))) →
    (∀ u ∈ t.manager.tracked, t.isAt u source = false) ∧
      ∃ before m during moved,
        a = before ++ .carried n (.store (.rename source target)) (.ok m) :: during ∧
          x.Holds source none (during ++ .stepped n p answer s :: b) ∧
          x.Holds target (some moved) (during ++ .stepped n p answer s :: b) ∧
          ∀ earlier k request m' later,
            before = earlier ++ .carried k (.store (.save source request)) (.ok m') :: later →
            (∀ e ∈ later, e.spares source) →
            some moved = (lastSaved source later).or (some request.content)
  /-- When a call has deleted a file, the store has done so before; since then its path holds only
  what was saved there. -/
  deleted : ∀ n path a p answer s b t, x.log = a ++ .stepped n p answer s :: b →
    Began n (.deleteFile path) a → p.resume s answer = (t, .inr (.manager (.ok .deleted))) →
    ∃ before during, a = before ++ .carried n (.store (.delete path)) (.ok ()) :: during ∧
      x.Holds path none (during ++ .stepped n p answer s :: b)
  /-- What is saved to a path where no live context is any more was to be saved before. -/
  late : ∀ path a b, x.log = a ++ b →
    (∀ n p answer s, .stepped n p answer s ∈ b → ∀ c, ¬ s.IsLiveAt path c) →
    ∀ n request reply, .carried n (.store (.save path request)) reply ∈ b →
      ∃ p answer s c, .stepped n p answer s ∈ a ∧ s.IsLiveAt path c ∧
        (s.context c).saveRequest = request

/-- **In every run**, if all replies come from the store. -/
theorem comes_back_only_by_saves (session : Session) (store : MemoryStore) (moves : List Move)
    (honest : ∀ m ∈ moves, m.isAnswer = false) :
    ((start session store).run moves).ComesBackOnlyBySaves where
  renamed := by
    rintro n source target a p answer s b t other log began returned
    obtain ⟨⟨m, carried⟩, u, rfl⟩ := renamed_of_log honest log began returned
    refine ⟨fun v hv => Manager.isAt_followAll other ?_, ?_⟩
    · have manager := Manager.followAll_keeps (·.manager) (fun _ _ _ => rfl) u source target
      rwa [show (Manager.followAll u source target).manager = u.manager from manager] at hv
    · obtain ⟨before, during, rfl⟩ := List.append_of_mem carried
      rw [List.append_assoc, List.cons_append] at log
      obtain ⟨gone, moved, there, origin⟩ := holds_of_renamed other log
      exact ⟨before, m, during, moved, rfl, gone, there, origin⟩
  deleted := by
    rintro n path a p answer s b t log began returned
    obtain ⟨before, during, rfl⟩ := List.append_of_mem (deleted_of_log honest log began returned)
    rw [List.append_assoc, List.cons_append] at log
    exact ⟨before, during, rfl, holds_of_deleted log⟩
  late := fun path a b log deserted n request reply late => begun_of_carried log deserted late

end Traffic

/-! ## 4. A save that is in flight -/

/-- The reply with which a call of the manager returns by this event. -/
def Event.returned? : Event → Option ManagerReply
  | .stepped _ p answer s =>
    match (p.resume s answer).2 with
    | .inr (.manager (.ok r)) => some r
    | _ => none
  | _ => none

/-- The text at a path, where there is a text. -/
def MemoryStore.text? (s : MemoryStore) (path : String) : Option String :=
  match s.content? path with
  | some (.text t) => some t
  | _ => none

namespace Traffic

/-- A store with one text. -/
def oneFile : MemoryStore := (({} : MemoryStore).write "a" (.text "one")).1

/-- The text is opened, replaced and saved, up to where the save is handed to the store. -/
def savesEdit : List Move :=
  [.deed (.setRegistry .sample), .call (.open "a" "editor" none)] ++ goes 0 4 ++ [.carryOut 0] ++
    goes 0 1 ++ [.deed (.setModel 0 ⟨.text "two", true, false⟩), .enter (.operation 0 .save)] ++
    goes 0 1

/-- The file is moved or deleted by a call that runs beside the save. -/
def removes (op : ManagerOp) : List Move := .call op :: goes 1 3 ++ .carryOut 1 :: goes 1 1

/-- A session without autosave. -/
def quietSession : Session := .create { autosave := { enabled := false } }

/-- The save takes effect before the file is moved, and is found at the target. -/
theorem comes_back_only_by_saves_savesBefore :
    let moves := savesEdit ++ .carryOut 0 :: removes (.renameFile "a" "b") ++ goes 0 1
    let x := (start quietSession oneFile).run moves
    (∀ m ∈ moves, m.isAnswer = false) ∧
      x.log.filterMap Event.returned? = [.widget (some (.issued 0)), .renamed] ∧
      x.errands.length = 0 ∧ x.store.contains "a" = false ∧ x.store.text? "b" = some "two" ∧
      x.ComesBackOnlyBySaves :=
  have honest : ∀ m ∈ savesEdit ++ .carryOut 0 :: removes (.renameFile "a" "b") ++ goes 0 1,
      m.isAnswer = false := by decide +kernel
  ⟨honest, by decide +kernel, by decide +kernel, by decide +kernel, by decide +kernel,
    comes_back_only_by_saves quietSession oneFile _ honest⟩

/-- **A file comes back**: the call has returned and the file is gone, but a save is in flight.
When it is done, the file is at its old path again.  If it was moved, the target has the old text,
though the context is there and clean. -/
theorem file_comes_back :
    let moved := (start quietSession oneFile).run (savesEdit ++ removes (.renameFile "a" "b"))
    let deleted := (start quietSession oneFile).run (savesEdit ++ removes (.deleteFile "a"))
    let x := moved.run (.carryOut 0 :: goes 0 1)
    let y := deleted.run (.carryOut 0 :: goes 0 1)
    (moved.log.filterMap Event.returned? = [.widget (some (.issued 0)), .renamed] ∧
      moved.errands.map (·.process.saves) = [true] ∧ moved.store.contains "a" = false ∧
      x.errands.length = 0 ∧ x.store.text? "a" = some "two" ∧ x.store.text? "b" = some "one" ∧
      (x.session.context 0).path = "b" ∧ (x.session.context 0).model.dirty = false) ∧
    (deleted.log.filterMap Event.returned? = [.widget (some (.issued 0)), .deleted] ∧
      deleted.errands.map (·.process.saves) = [true] ∧ deleted.store.contains "a" = false ∧
      y.errands.length = 0 ∧ y.store.text? "a" = some "two") := by
  decide +kernel

end Traffic

end Folio
