/-
# What calls do to files

Every call of a store that may change a file either is refused, and leaves the store alone, or does
the one thing that it is for (`write_cases`, `commit_cases`, `rename_cases`, `delete_cases`,
`restoreCheckpoint_cases`).  What is read, and what a checkpoint is taken of, is the file that is
there.
-/
import Folio.Store.InMemory

namespace Folio.MemoryStore

variable {s : MemoryStore}

/-! ## 1. Calls that find a file -/

/-- The file that a call finds is the one that is there. -/
theorem get?_of_file {path : String} {f : StoredFile} (h : s.file path = .ok f) :
    s.files.get? path = some f := by
  unfold MemoryStore.file at h
  cases available : s.requireAvailable with
  | error e => simp [available, bind, Except.bind] at h
  | ok u =>
    cases found : s.files.get? path with
    | none => simp [available, found, bind, Except.bind] at h
    | some g =>
      simp only [available, found, bind, Except.bind, Except.ok.injEq] at h
      rw [h]

/-- A read reports the file that is there. -/
theorem get?_of_read {path : String} {withContent : Bool} {file : RemoteFile}
    (h : s.read path withContent = .ok file) : ∃ f, s.files.get? path = some f ∧
      file = ⟨path, f.metadata, f.writable, if withContent then some f.content else none⟩ := by
  unfold read at h
  cases available : s.requireAvailable with
  | error e => simp [available, bind, Except.bind] at h
  | ok u =>
    simp only [available, bind, Except.bind] at h
    split at h
    · cases h
    · cases found : s.file path with
      | error e => simp [found] at h
      | ok f =>
        simp only [found, pure, Except.pure, Except.ok.injEq] at h
        exact ⟨f, get?_of_file found, h.symm⟩

/-- To take a checkpoint leaves every file at its version. -/
theorem get?_createCheckpoint (s : MemoryStore) (path other : String) :
    ((s.createCheckpoint path).1.files.get? other).map (fun f => (f.metadata, f.content)) =
      (s.files.get? other).map fun f => (f.metadata, f.content) := by
  unfold createCheckpoint
  split
  · rfl
  · next f found =>
    simp only [Table.get?_put]
    split
    · next same =>
      rw [same, get?_of_file found]
      rfl
    · rfl

/-! ## 2. Calls that change a file -/

/-- The next time is later than the last. -/
theorem lastTime_lt_nextTime (s : MemoryStore) : s.lastTime < s.nextTime :=
  Int.lt_of_lt_of_le (Int.lt_succ s.lastTime) (Int.le_max_right ..)

/-- The file that a new version leaves. -/
theorem get?_revise (s : MemoryStore) (path : String) (content : Content) :
    ∃ f, (s.revise path content).files = s.files.put path f ∧
      f.metadata = ⟨s.nextTime, content.size⟩ ∧ f.content = content ∧
      ∀ c ∈ f.checkpoints, ∃ old, s.files.get? path = some old ∧ c ∈ old.checkpoints := by
  unfold revise
  split
  · next old found => exact ⟨_, rfl, rfl, rfl, fun c taken => ⟨old, found, taken⟩⟩
  · exact ⟨_, rfl, rfl, rfl, fun _ taken => absurd taken List.not_mem_nil⟩

/-- **A write is done**, if there is a time for it. -/
theorem write_of_lt {path : String} {content : Content} (below : s.lastTime < greatestTime) :
    s.write path content = (s.revise path content, .ok ⟨s.nextTime, content.size⟩) := if_pos below

/-- **A write is done, or it breaks off** and leaves the store alone, since the greatest time has
been given. -/
theorem write_cases (s : MemoryStore) (path : String) (content : Content) :
    s.write path content = (s, .error .overflow) ∨
      s.write path content = (s.revise path content, .ok ⟨s.nextTime, content.size⟩) := by
  by_cases below : s.lastTime < greatestTime
  · exact .inr (write_of_lt below)
  · exact .inl (if_neg below)

/-- **A save that is over is done or refused.** -/
theorem commit_cases (s : MemoryStore) (path : String) (content : Content) :
    (∃ e, s.commit path content = (s, .error e)) ∨
      s.commit path content = (s.revise path content, .ok ⟨s.nextTime, content.size⟩) := by
  unfold commit
  split
  · exact .inl ⟨_, rfl⟩
  · split
    · exact .inl ⟨_, rfl⟩
    · exact (s.write_cases path content).imp_left fun broken => ⟨_, broken⟩

/-- **A file is moved**, or the call is refused. -/
theorem rename_cases (s : MemoryStore) (source target : String) :
    (∃ e, s.rename source target = (s, .error e)) ∨ ∃ f, s.files.get? source = some f ∧
      s.rename source target =
        ({ s with files := (s.files.erase source).put target f }, .ok f.metadata) := by
  unfold rename
  split
  · exact .inl ⟨_, rfl⟩
  · split
    · exact .inl ⟨_, rfl⟩
    · split
      · exact .inl ⟨_, rfl⟩
      · next f found => exact .inr ⟨f, found, rfl⟩

/-- A file is moved only to where there is none. -/
theorem free_of_renamed {source target : String} {m : Metadata}
    (renamed : (s.rename source target).2 = .ok m) : s.files.get? target = none := by
  cases there : s.contains target with
  | true =>
    unfold rename at renamed
    split at renamed
    · cases renamed
    · rw [if_pos there] at renamed
      cases renamed
  | false =>
    rwa [contains, Table.contains_eq_isSome_get?, Option.isSome_eq_false_iff,
      Option.isNone_iff_eq_none] at there

/-- **A file is deleted**, or the call is refused. -/
theorem delete_cases (s : MemoryStore) (path : String) :
    (∃ e, s.delete path = (s, .error e)) ∨
      s.delete path = ({ s with files := s.files.erase path }, .ok ()) := by
  unfold delete
  split
  · exact .inl ⟨_, rfl⟩
  · exact .inr rfl

/-- **A file is put back** to a checkpoint, or the call is refused. -/
theorem restoreCheckpoint_cases (s : MemoryStore) (path id : String) :
    (∃ e, s.restoreCheckpoint path id = (s, .error e)) ∨
      ∃ content, s.restoreCheckpoint path id = (s.revise path content, .ok ()) := by
  unfold restoreCheckpoint
  split
  · exact .inl ⟨_, rfl⟩
  · split
    · exact .inl ⟨_, rfl⟩
    · next content _ =>
      rcases s.write_cases path content with broken | done
      · exact .inl ⟨.overflow, by rw [broken]; rfl⟩
      · exact .inr ⟨content, by rw [done]; rfl⟩

end Folio.MemoryStore
