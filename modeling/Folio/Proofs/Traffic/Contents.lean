/-
# What a file holds

The log tells what was done to the store.  A file holds what the last save of it brought that the
store has carried out, if nothing else was done to it meanwhile: if it was not moved, deleted or put
back to a checkpoint, nothing was moved there, and others left its content alone (`Event.spares`).
Where there was no save, it holds what it held before (`content?_run`).
-/
import Folio.Proofs.Saving.Versions
import Folio.Proofs.Traffic.Basic

namespace Folio

/-! ## 1. Calls of the store -/

namespace MemoryStore

theorem content?_revise_of_ne (s : MemoryStore) {path other : String} (content : Content)
    (h : other ≠ path) : (s.revise path content).content? other = s.content? other := by
  simp only [revise, content?, Table.get?_put, if_neg h]

/-- **A file is moved**: the target holds what the source held, and the source is gone. -/
theorem content?_rename {s t : MemoryStore} {source target : String} {m : Metadata}
    (h : s.rename source target = (t, .ok m)) (other : String) :
    t.content? other =
      if other = target then s.content? source
      else if other = source then none else s.content? other := by
  rcases s.rename_cases source target with ⟨e, refused⟩ | ⟨file, found, moved⟩
  · cases refused.symm.trans h
  · cases moved.symm.trans h
    simp only [content?, Table.get?_put, Table.get?_erase, found]
    split
    · rfl
    · split <;> rfl

/-- A file that is moved was there. -/
theorem exists_content_of_rename {s t : MemoryStore} {source target : String} {m : Metadata}
    (h : s.rename source target = (t, .ok m)) : ∃ content, s.content? source = some content := by
  rcases s.rename_cases source target with ⟨e, refused⟩ | ⟨file, found, -⟩
  · cases refused.symm.trans h
  · exact ⟨file.content, by rw [content?, found]; rfl⟩

/-- **A file is deleted.** -/
theorem content?_delete {s t : MemoryStore} {path : String} (h : s.delete path = (t, .ok ()))
    (other : String) : t.content? other = if other = path then none else s.content? other := by
  rcases s.delete_cases path with ⟨e, refused⟩ | deleted
  · cases refused.symm.trans h
  · cases deleted.symm.trans h
    simp only [content?, Table.get?_erase]
    split <;> rfl

theorem content?_createCheckpoint (s : MemoryStore) (path other : String) :
    (s.createCheckpoint path).1.content? other = s.content? other := by
  simpa [content?, Option.map_map, Function.comp_def] using
    congrArg (Option.map Prod.snd) (s.get?_createCheckpoint path other)

end MemoryStore

namespace StoreRequest

/-- What a save of a file has brought, if it was done. -/
def saved? (path : String) : (r : StoreRequest) → r.Reply → Option Content
  | .save p request, .ok _ => if p = path then some request.content else none
  | _, _ => none

/-- **The call leaves a file as it is, but for saves.** -/
def spares (path : String) : (r : StoreRequest) → r.Reply → Bool
  | .rename source target, .ok _ => source != path && target != path
  | .delete p, .ok _ => p != path
  | .restoreCheckpoint p _, .ok _ => p != path
  | _, _ => true

end StoreRequest

/-- **What a call makes of a file** that it spares: a save brings its content. -/
theorem MemoryStore.content?_perform {s t : MemoryStore} {path : String} :
    (r : StoreRequest) → {reply : r.Reply} → s.perform r = (t, reply) →
    r.spares path reply = true → t.content? path = (r.saved? path reply).or (s.content? path)
  | .get p withContent, reply, h, _ => by
    cases h
    cases withContent <;> rfl
  | .save p request, reply, h, _ => by
    simp only [perform] at h
    rcases commit_cases s.countSave p request.content with ⟨e, he⟩ | hm
    · rw [he] at h
      cases h
      rfl
    · rw [hm] at h
      cases h
      simp only [StoreRequest.saved?]
      split
      · next same =>
        subst same
        exact content?_revise s.countSave p request.content
      · next other => exact content?_revise_of_ne s.countSave request.content (Ne.symm other)
  | .rename source target, .error e, h, _ => by
    rcases s.rename_cases source target with ⟨_, refused⟩ | ⟨_, _, moved⟩
    · cases refused.symm.trans h
      rfl
    · cases moved.symm.trans h
  | .rename source target, .ok m, h, spared => by
    obtain ⟨hs, ht⟩ : source ≠ path ∧ target ≠ path := by simpa [StoreRequest.spares] using spared
    rw [content?_rename h, if_neg (Ne.symm ht), if_neg (Ne.symm hs)]
    rfl
  | .delete p, .error e, h, _ => by
    rcases s.delete_cases p with ⟨_, refused⟩ | deleted
    · cases refused.symm.trans h
      rfl
    · cases deleted.symm.trans h
  | .delete p, .ok (), h, spared => by
    have hp : p ≠ path := by simpa [StoreRequest.spares] using spared
    rw [content?_delete h, if_neg (Ne.symm hp)]
    rfl
  | .createCheckpoint p, reply, h, _ => by
    obtain rfl : (s.createCheckpoint p).1 = t := congrArg Prod.fst h
    rw [content?_createCheckpoint]
    cases reply <;> rfl
  | .listCheckpoints p, reply, h, _ => by
    obtain rfl : s = t := congrArg Prod.fst h
    cases reply <;> rfl
  | .restoreCheckpoint p id, reply, h, spared => by
    rcases s.restoreCheckpoint_cases p id with ⟨_, refused⟩ | ⟨content, restored⟩
    · cases refused.symm.trans h
      rfl
    · cases restored.symm.trans h
      have hp : p ≠ path := by simpa [StoreRequest.spares] using spared
      exact content?_revise_of_ne s content (Ne.symm hp)

/-! ## 2. Events -/

/-- What the event has saved to a file. -/
def Event.saved? (path : String) : Event → Option Content
  | .carried _ (.store r) reply => r.saved? path reply
  | _ => none

/-- The event leaves a file as it is, but for saves. -/
def Event.spares (path : String) : Event → Prop
  | .carried _ (.store r) reply => r.spares path reply = true
  | .changed before after => after.content? path = before.content? path
  | _ => True

/-- **What the last save of a file has brought**, if there was one. -/
def lastSaved (path : String) (log : List Event) : Option Content :=
  (log.filterMap (Event.saved? path)).getLast?

theorem lastSaved_append (path : String) (a b : List Event) :
    lastSaved path (a ++ b) = (lastSaved path b).or (lastSaved path a) := by
  simp [lastSaved, List.getLast?_append]

theorem lastSaved_cons (path : String) (e : Event) (log : List Event) :
    lastSaved path (e :: log) = (lastSaved path log).or (e.saved? path) := by
  rw [← List.singleton_append, lastSaved_append]
  congr 1
  simp only [lastSaved, List.filterMap_cons]
  cases e.saved? path <;> rfl

/-! ## 3. Runs -/

namespace Traffic

/-- **What a move makes of a file**, by the event that it enters in the log. -/
theorem Does.content? {x y : Traffic} {m : Move} {e : Option Event} (h : Does x m e y)
    {path : String} (spared : ∀ d ∈ e, d.spares path) :
    y.store.content? path = (e.bind (·.saved? path)).or (x.store.content? path) := by
  cases h with
  | others store => exact spared _ rfl
  | @carries i before after t store reply split waits done =>
    obtain ⟨number, process, reply'⟩ := t
    have spares := spared _ rfl
    simp only [Option.bind_some]
    generalize process.need = need at reply done spares
    cases need with
    | store r =>
      simp only [Need.carryOut, Option.some.injEq] at done
      exact MemoryStore.content?_perform r done spares
    | _ => cases done
  | _ => rfl

/-- A run only adds to the log. -/
theorem exists_log_run (moves : List Move) (x : Traffic) :
    ∃ log, (x.run moves).log = x.log ++ log := by
  induction moves using List.reverseRecOn with
  | nil => exact ⟨[], (List.append_nil _).symm⟩
  | append_singleton moves m ih =>
    obtain ⟨log, hlog⟩ := ih
    obtain ⟨e, does⟩ := (x.run moves).step_does m
    exact ⟨log ++ e.toList, by rw [run_concat, does.log, hlog, List.append_assoc]⟩

/-- **What a file holds after a run**: what the last save of it has brought, or what it held. -/
theorem content?_run {path : String} (moves : List Move) {x : Traffic} {log : List Event}
    (h : (x.run moves).log = x.log ++ log) (spared : ∀ e ∈ log, e.spares path) :
    (x.run moves).store.content? path = (lastSaved path log).or (x.store.content? path) := by
  induction moves generalizing x log with
  | nil =>
    obtain rfl : log = [] := by simpa [run] using h
    rfl
  | cons m moves ih =>
    obtain ⟨e, does⟩ := x.step_does m
    obtain ⟨rest, hrest⟩ := exists_log_run moves (x.step m)
    obtain rfl : log = e.toList ++ rest := by
      have whole : x.log ++ log = x.log ++ (e.toList ++ rest) := by
        rw [← h, ← List.append_assoc, ← does.log]
        exact hrest
      exact List.append_cancel_left whole
    have first : (x.step m).store.content? path =
        (e.bind (·.saved? path)).or (x.store.content? path) :=
      does.content? fun d hd => spared d (List.mem_append_left _ (Option.mem_toList.mpr hd))
    have later := ih hrest fun d hd => spared d (List.mem_append_right _ hd)
    rw [show (x.run (m :: moves)) = (x.step m).run moves from rfl, later, first, lastSaved_append,
      Option.or_assoc]
    cases e with
    | none => rfl
    | some d => rw [Option.toList_some, lastSaved_cons]; rfl

/-- **What a file holds since**: it held this, and then what the last save has brought, unless
something else was done to it. -/
def Holds (x : Traffic) (path : String) (before : Option Content) (since : List Event) : Prop :=
  (∀ e ∈ since, e.spares path) → x.store.content? path = (lastSaved path since).or before

theorem perform_of_carryOut {s t : MemoryStore} {need : Need} {got : need.Answer} {n k : Nat}
    {r : StoreRequest} {reply : r.Reply} (done : need.carryOut s = some (t, got))
    (same : Event.carried n (.store r) reply = .carried k need got) :
    s.perform r = (t, reply) := by
  simp only [Event.carried.injEq] at same
  obtain ⟨-, rfl, same⟩ := same
  cases same
  simpa [Need.carryOut] using done

/-- The store has done what the log says that it carried out. -/
theorem Does.perform {x y : Traffic} {m : Move} {n : Nat} {r : StoreRequest} {reply : r.Reply}
    (h : Does x m (some (.carried n (.store r) reply)) y) :
    x.store.perform r = (y.store, reply) := by
  generalize he : some (Event.carried n (.store r) reply) = e at h
  cases h with
  | carries i split waits done => exact perform_of_carryOut done (Option.some.inj he)
  | _ => cases he

/-- **What files hold since an event**: what they held right after it. -/
theorem holds_of_log {x : Traffic} (empty : x.log = []) {moves : List Move} {e : Event}
    {a b : List Event} (log : (x.run moves).log = a ++ e :: b) :
    ∃ first m y, (x.run first).log = a ∧ Does (x.run first) m (some e) y ∧
      ∀ path, (x.run moves).Holds path (y.store.content? path) b := by
  obtain ⟨first, m, second, rfl, rfl, does⟩ := eq_of_log empty log
  refine ⟨first, m, _, rfl, does, fun path spared => ?_⟩
  have whole : x.run (first ++ m :: second) = ((x.run first).step m).run second := by
    rw [run_append]
    rfl
  rw [whole] at log ⊢
  refine content?_run second ?_ spared
  rw [log, does.log, List.append_assoc]
  rfl

/-- **Since a save** a file holds what that save has brought. -/
theorem holds_of_saved {x : Traffic} (empty : x.log = []) {moves : List Move} {n : Nat}
    {path : String} {request : SaveRequest} {m : Metadata} {a b : List Event}
    (log : (x.run moves).log = a ++ .carried n (.store (.save path request)) (.ok m) :: b) :
    (x.run moves).Holds path (some request.content) b := by
  obtain ⟨first, move, y, -, does, holds⟩ := holds_of_log empty log
  have saved : y.store.content? path = some request.content := by
    have spared : ∀ d ∈ some (Event.carried n (.store (.save path request)) (.ok m)),
        d.spares path := by
      rintro _ ⟨⟩
      rfl
    simpa [Event.saved?, StoreRequest.saved?] using does.content? spared
  exact saved ▸ holds path

end Traffic

end Folio
