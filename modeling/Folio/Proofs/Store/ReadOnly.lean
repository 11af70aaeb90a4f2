/-
# Files that may not be written

A save looks whether its file may be written, and leaves the file alone if it may not, whatever
happened while it took its time.  A write by another client does not look, and neither does the
restoring of a checkpoint, though it is a call like a save.  So a file that is marked not writable
keeps its content, its size and its time but for these two.

`overwritesOf` lists the versions that writes from outside and restored checkpoints have put in
place of a file, wherever it was then.  One step takes a file that is not writable to the last of
them (`ReadOnlyAt.step`), and so does a run (`ReadOnlyAt.run`).
-/
import Folio.Proofs.Store.Checkpoints

namespace Folio

namespace StoreDeed

/-- **What a deed puts in place of the file at a path** without looking whether it is writable. -/
def overwrites (s : MemoryStore) (d : StoreDeed) (path : String) : Option Edition :=
  match d with
  | .write written _ => if path = written then d.edition? s else none
  | .call (.restoreCheckpoint restored _) => if path = restored then d.edition? s else none
  | _ => none

/-- The deed marks the file at a path writable. -/
def opens (d : StoreDeed) (path : String) : Bool :=
  match d with
  | .setWritable marked writable => marked == path && writable
  | _ => false

end StoreDeed

namespace MemoryStore

/-- **The versions that were put in place of the file at a path** in a run, oldest first. -/
def overwritesOf (s : MemoryStore) : List StoreDeed → String → List Edition
  | [], _ => []
  | d :: rest, path => (d.overwrites s path).toList ++
      ((d.moves s path).map ((d.apply s).overwritesOf rest)).getD []

/-- **Nobody marks the file at a path writable** while the run lasts, wherever the file is. -/
def StaysReadOnly (s : MemoryStore) : List StoreDeed → String → Prop
  | [], _ => True
  | d :: rest, path => d.opens path = false ∧
      ∀ moved ∈ d.moves s path, (d.apply s).StaysReadOnly rest moved

/-- This can be computed along the run. -/
def StaysReadOnly.decide (s : MemoryStore) : (deeds : List StoreDeed) → (path : String) →
    Decidable (s.StaysReadOnly deeds path)
  | [], _ => .isTrue trivial
  | d :: rest, path =>
    have := StaysReadOnly.decide (d.apply s) rest
    inferInstanceAs (Decidable (d.opens path = false ∧
      ∀ moved ∈ d.moves s path, (d.apply s).StaysReadOnly rest moved))

instance (s : MemoryStore) (deeds : List StoreDeed) (path : String) :
    Decidable (s.StaysReadOnly deeds path) := StaysReadOnly.decide s deeds path

/-- The file at a path is not writable, and it is at a version. -/
def ReadOnlyAt (s : MemoryStore) (path : String) (e : Edition) : Prop :=
  ∃ f, s.files.get? path = some f ∧ f.writable = false ∧ f.edition = e

variable {s t : MemoryStore} {d : StoreDeed} {path other : String} {e : Edition}

/-! ## 1. What the operations do to such a file -/

theorem ReadOnlyAt.of_files (h : s.ReadOnlyAt path e) (files : t.files = s.files) :
    t.ReadOnlyAt path e := by
  rwa [ReadOnlyAt, files]

theorem ReadOnlyAt.of_put_here {g : StoredFile} (files : t.files = s.files.put path g)
    (closed : g.writable = false) (is : g.edition = e) : t.ReadOnlyAt path e :=
  ⟨g, by rw [files, Table.get?_put, if_pos rfl], closed, is⟩

/-- It stays as it is where another file is put. -/
theorem ReadOnlyAt.of_put (h : s.ReadOnlyAt path e) (elsewhere : path ≠ other) {g : StoredFile}
    (files : t.files = s.files.put other g) : t.ReadOnlyAt path e := by
  rwa [ReadOnlyAt, files, Table.get?_put, if_neg elsewhere]

theorem ReadOnlyAt.revise_other (h : s.ReadOnlyAt path e) (elsewhere : path ≠ other)
    (content : Content) : (s.revise other content).ReadOnlyAt path e := by
  obtain ⟨g, files, -⟩ := s.get?_revise other content
  exact h.of_put elsewhere files

/-- **A new version is put in place of the file**, which is not writable after it either. -/
theorem ReadOnlyAt.revise (h : s.ReadOnlyAt path e) (content : Content) :
    (s.revise path content).ReadOnlyAt path ⟨⟨s.nextTime, content.size⟩, content⟩ := by
  obtain ⟨f, found, closed, -⟩ := h
  exact .of_put_here (revise_of_found found content) closed rfl

/-- **A write** puts its version in place of the file that it is for. -/
theorem ReadOnlyAt.write (h : s.ReadOnlyAt path e) (written : String) (content : Content) :
    (s.write written content).1.ReadOnlyAt path
      (((StoreDeed.write written content).overwrites s path).getD e) := by
  rw [StoreDeed.overwrites, StoreDeed.edition?]
  rcases s.write_cases written content with broken | done
  · simpa [broken, Except.toOption] using h
  · rw [done]
    by_cases here : path = written
    · subst here
      rw [if_pos rfl]
      exact h.revise content
    · rw [if_neg here]
      exact h.revise_other here content

/-- **A save is refused.** -/
theorem ReadOnlyAt.commit (h : s.ReadOnlyAt path e) (content : Content) :
    s.commit path content = (s, .error (if s.available then .internal (path ++ " is read-only")
      else .unavailable "memory store offline")) := by
  obtain ⟨⟨_, _, writable, _⟩, found, closed, -⟩ := h
  obtain rfl : writable = false := closed
  unfold MemoryStore.commit requireAvailable
  cases s.available with
  | false => rfl
  | true => simp [found]

/-- **A save at any path** leaves it as it is. -/
theorem ReadOnlyAt.after_commit (h : s.ReadOnlyAt path e) (saved : String) (content : Content) :
    (s.commit saved content).1.ReadOnlyAt path e := by
  by_cases here : path = saved
  · rwa [← here, h.commit content]
  · rcases s.commit_cases saved content with ⟨e, he⟩ | done
    · rwa [he]
    · rw [done]
      exact h.revise_other here content

theorem ReadOnlyAt.setWritable (h : s.ReadOnlyAt path e) {marked : String} {writable : Bool}
    (stays : (StoreDeed.setWritable marked writable).opens path = false) :
    (s.setWritable marked writable).ReadOnlyAt path e := by
  unfold MemoryStore.setWritable
  split
  · next f found =>
    by_cases here : path = marked
    · subst here
      obtain ⟨g, there, -, is⟩ := h
      obtain rfl : g = f := Option.some.inj (there.symm.trans found)
      have closed : writable = false := by simpa [StoreDeed.opens] using stays
      exact .of_put_here rfl closed is
    · exact h.of_put here rfl
  · exact h

theorem ReadOnlyAt.createCheckpoint (h : s.ReadOnlyAt path e) (taken : String) :
    (s.createCheckpoint taken).1.ReadOnlyAt path e := by
  unfold MemoryStore.createCheckpoint
  split
  · exact h
  · next f found =>
    by_cases here : path = taken
    · subst here
      obtain ⟨g, there, closed, is⟩ := h
      obtain rfl : g = f := Option.some.inj (there.symm.trans (get?_of_file found))
      exact .of_put_here rfl closed is
    · exact h.of_put here rfl

/-- **It is moved as it is.** -/
theorem ReadOnlyAt.rename (h : s.ReadOnlyAt path e) {source target moved : String}
    (leads : (StoreDeed.call (.rename source target)).moves s path = some moved) :
    (s.rename source target).1.ReadOnlyAt moved e := by
  rcases s.rename_cases source target with ⟨e', he⟩ | ⟨f, found, done⟩
  · have stays : path = moved := by
      simpa [StoreDeed.moves, he, Except.isOk, Except.toBool] using leads
    rwa [he, ← stays]
  · have free := free_of_renamed (congrArg (·.2) done)
    simp only [StoreDeed.moves, done, Except.isOk, Except.toBool, and_true] at leads
    obtain ⟨g, there, closed, is⟩ := h
    rw [done, ReadOnlyAt, Table.get?_put, Table.get?_erase]
    split at leads
    · next here =>
      obtain rfl : target = moved := Option.some.inj leads
      obtain rfl : g = f := Option.some.inj (there.symm.trans (here ▸ found))
      exact ⟨g, by rw [if_pos rfl], closed, is⟩
    · next here =>
      obtain rfl : path = moved := Option.some.inj leads
      have apart : path ≠ target := by
        rintro rfl
        rw [free] at there
        cases there
      exact ⟨g, by rw [if_neg apart, if_neg here, there], closed, is⟩

theorem ReadOnlyAt.delete (h : s.ReadOnlyAt path e) {deleted moved : String}
    (leads : (StoreDeed.call (.delete deleted)).moves s path = some moved) :
    (s.delete deleted).1.ReadOnlyAt moved e := by
  rcases s.delete_cases deleted with ⟨e', he⟩ | done
  · have stays : path = moved := by
      simpa [StoreDeed.moves, he, Except.isOk, Except.toBool] using leads
    rwa [he, ← stays]
  · simp only [StoreDeed.moves, done, Except.isOk, Except.toBool, and_true] at leads
    split at leads
    · cases leads
    · next here =>
      obtain rfl : path = moved := Option.some.inj leads
      rw [done, ReadOnlyAt, Table.get?_erase, if_neg here]
      exact h

/-- **A checkpoint that is restored** puts its version in place of the file that it is of. -/
theorem ReadOnlyAt.restoreCheckpoint (h : s.ReadOnlyAt path e) (restored id : String) :
    (s.restoreCheckpoint restored id).1.ReadOnlyAt path
      (((StoreDeed.call (.restoreCheckpoint restored id)).overwrites s path).getD e) := by
  rcases s.restoreCheckpoint_cases restored id with ⟨e', he⟩ | ⟨content, done⟩
  · simpa [StoreDeed.overwrites, StoreDeed.edition?, he] using h
  · rw [StoreDeed.overwrites, done]
    by_cases here : path = restored
    · subst here
      obtain ⟨f, found, closed, is⟩ := h.revise content
      rw [if_pos rfl, StoreDeed.edition?, done]
      exact ⟨f, found, closed, by simp [found]⟩
    · rw [if_neg here]
      exact h.revise_other here content

/-! ## 2. A step and a run -/

/-- **A step takes such a file to what is put in its place**, and leaves it not writable. -/
theorem ReadOnlyAt.step (h : s.ReadOnlyAt path e) (stays : d.opens path = false) {moved : String}
    (leads : d.moves s path = some moved) :
    (d.apply s).ReadOnlyAt moved ((d.overwrites s path).getD e) := by
  cases d with
  | write written content =>
    obtain rfl : path = moved := Option.some.inj leads
    exact h.write written content
  | setWritable marked writable =>
    obtain rfl : path = moved := Option.some.inj leads
    exact h.setWritable stays
  | setClock time =>
    obtain rfl : path = moved := Option.some.inj leads
    exact h.of_files rfl
  | setConditions available metadataAvailable saveDelay =>
    obtain rfl : path = moved := Option.some.inj leads
    exact h.of_files rfl
  | commit saved content =>
    obtain rfl : path = moved := Option.some.inj leads
    exact h.after_commit saved content
  | call r =>
    cases r with
    | get read withContent =>
      obtain rfl : path = moved := Option.some.inj leads
      exact h.of_files (by cases withContent <;> rfl)
    | save saved request =>
      obtain rfl : path = moved := Option.some.inj leads
      have counted : s.countSave.ReadOnlyAt path e := h.of_files rfl
      exact counted.after_commit saved request.content
    | rename source target => exact h.rename leads
    | delete deleted => exact h.delete leads
    | createCheckpoint taken =>
      obtain rfl : path = moved := Option.some.inj leads
      exact h.createCheckpoint taken
    | listCheckpoints listed =>
      obtain rfl : path = moved := Option.some.inj leads
      exact h
    | restoreCheckpoint restored id =>
      obtain rfl : path = moved := Option.some.inj leads
      exact h.restoreCheckpoint restored id

/-- **A run takes such a file to the last version that was put in its place**, or leaves it at its
own. -/
theorem ReadOnlyAt.run {deeds : List StoreDeed} (h : s.ReadOnlyAt path e)
    (stays : s.StaysReadOnly deeds path) {current : String}
    (leads : s.follow deeds path = some current) :
    (s.after deeds).ReadOnlyAt current ((s.overwritesOf deeds path).getLast?.getD e) := by
  induction deeds generalizing s path e with
  | nil =>
    obtain rfl : path = current := Option.some.inj leads
    exact h
  | cons d rest ih =>
    obtain ⟨moved, goes, leads⟩ := follow_cons_eq_some.mp leads
    have later := ih (h.step stays.1 goes) (stays.2 moved goes) leads
    have last : (s.overwritesOf (d :: rest) path).getLast?.getD e =
        ((d.apply s).overwritesOf rest moved).getLast?.getD ((d.overwrites s path).getD e) := by
      rw [overwritesOf, goes, Option.map_some, Option.getD_some, List.getLast?_append]
      cases ((d.apply s).overwritesOf rest moved).getLast? with
      | some _ => rfl
      | none => cases d.overwrites s path <;> rfl
    rw [after_cons, last]
    exact later

/-! ## 3. The theorem -/

/-- **Files that are not writable keep their content** but for writes from outside and for
checkpoints that are restored.  In any run in which the file at a path is not writable and nobody
marks it writable, whatever else is called, saves after any delay included, and wherever the file is
moved:

* unless it is deleted, the file is at the path that it has come to, and is not writable;
* its content, size and time are those of the last version that a write from outside or a checkpoint
  that was restored has put in its place, and its own if there was none;
* and a save of it that is over then is refused, and leaves the store as it is. -/
theorem read_only_files_keep_their_content (s : MemoryStore) (deeds : List StoreDeed)
    (path current : String) (f : StoredFile) (found : s.files.get? path = some f)
    (read_only : f.writable = false) (stays : s.StaysReadOnly deeds path)
    (leads : s.follow deeds path = some current) :
    ∃ g, (s.after deeds).files.get? current = some g ∧ g.writable = false ∧
      g.edition = (s.overwritesOf deeds path).getLast?.getD f.edition ∧
      ∀ content, (s.after deeds).commit current content =
        (s.after deeds, .error (if (s.after deeds).available
          then .internal (current ++ " is read-only")
          else .unavailable "memory store offline")) := by
  have start : s.ReadOnlyAt path f.edition := ⟨f, found, read_only, rfl⟩
  have last := start.run stays leads
  have refused := last.commit
  obtain ⟨g, there, closed, is⟩ := last
  exact ⟨g, there, closed, is, refused⟩

end MemoryStore

namespace StoreDeed

/-- A file is written, gets a checkpoint and is marked not writable. -/
def locked : List StoreDeed :=
  [.write "a.txt" (.text "one"), .call (.createCheckpoint "a.txt"), .setWritable "a.txt" false]

/-- Two saves of the file are refused, one before and one after it is moved; another file is written
where it was; another client writes the file, and its checkpoint is restored. -/
def lockedAndWritten : List StoreDeed :=
  [.call (.save "a.txt" ⟨"text", .text "mine"⟩), .call (.rename "a.txt" "b.txt"),
    .write "a.txt" (.text "other"), .commit "b.txt" (.text "late"),
    .write "b.txt" (.text "theirs"), .call (.restoreCheckpoint "b.txt" "cp0")]

end StoreDeed

namespace MemoryStore

/-- Both versions that were put in its place are there, and none of the saves. -/
theorem read_only_files_keep_their_content_lockedAndWritten :
    let s := after {} StoreDeed.locked
    (s.overwritesOf StoreDeed.lockedAndWritten "a.txt").map (·.metadata) = [⟨3, 6⟩, ⟨4, 3⟩] ∧
    ∃ g, (s.after StoreDeed.lockedAndWritten).files.get? "b.txt" = some g ∧
      g.writable = false ∧ g.metadata = ⟨4, 3⟩ := by
  intro s
  let f : StoredFile := ⟨.text "one", ⟨1, 3⟩, false, [(⟨"cp0", 1⟩, .text "one")]⟩
  obtain ⟨g, there, closed, is, -⟩ := read_only_files_keep_their_content s
    StoreDeed.lockedAndWritten "a.txt" "b.txt" f (by rfl) rfl (by decide +kernel)
    (by decide +kernel)
  have last : ((s.overwritesOf StoreDeed.lockedAndWritten "a.txt").getLast?.getD f.edition).metadata
      = ⟨4, 3⟩ := by decide +kernel
  exact ⟨by decide +kernel, g, there, closed, (congrArg Edition.metadata is).trans last⟩

/-- **A checkpoint is restored into a file that is not writable**, which a save of it may not do. -/
theorem read_only_file_is_restored :
    let deeds : List StoreDeed := [.write "a.txt" (.text "one"), .call (.createCheckpoint "a.txt"),
      .write "a.txt" (.text "three"), .setWritable "a.txt" false]
    let s := after {} deeds
    let t := (s.restoreCheckpoint "a.txt" "cp0").1
    (s.commit "a.txt" (.text "one")).2 = .error (.internal "a.txt is read-only") ∧
    (s.restoreCheckpoint "a.txt" "cp0").2 = .ok () ∧
    s.files.get? "a.txt" =
      some ⟨.text "three", ⟨2, 5⟩, false, [(⟨"cp0", 1⟩, .text "one")]⟩ ∧
    t.files.get? "a.txt" =
      some ⟨.text "one", ⟨3, 3⟩, false, [(⟨"cp0", 1⟩, .text "one")]⟩ := by
  refine ⟨by decide +kernel, by decide +kernel, by rfl, by rfl⟩

end MemoryStore

end Folio
