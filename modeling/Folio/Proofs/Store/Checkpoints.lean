/-
# The checkpoints of a file

A file keeps its checkpoints whatever happens to it.  To write a file replaces its record, and takes
the checkpoints over; to move it puts the record under another path; and what is put where the file
was before is another file, with checkpoints of its own.  So which checkpoints belong to a file can
be told from the run alone: those that were taken where the file was at that moment.

`follow` says where the file at a path comes to, and `takenOf` which checkpoints were taken of the
file that is at a path in the end.  A step keeps the two in line with what the store has
(`StoreDeed.Keeps`), and so does a run (`checkpointsAt_after`).  To restore a checkpoint is one more
write, of the content that the file had when the checkpoint was taken.
-/
import Folio.Proofs.Store.Times

namespace Folio

/-! ## 1. Following a file -/

namespace MemoryStore

/-- The checkpoints of the file at a path; there are none where no file is. -/
def checkpointsAt (s : MemoryStore) (path : String) : List (Checkpoint × Content) :=
  ((s.files.get? path).map (·.checkpoints)).getD []

/-- There is a file at the path. -/
def Has (s : MemoryStore) (path : String) : Prop := (s.files.get? path).isSome

end MemoryStore

namespace StoreDeed

/-- **Where the file at a path is after a deed**: a rename moves it, and it is nowhere if it is
deleted. -/
def moves (s : MemoryStore) (d : StoreDeed) (path : String) : Option String :=
  match d with
  | .call (.rename source target) =>
    if path = source ∧ (s.rename source target).2.isOk then some target else some path
  | .call (.delete deleted) =>
    if path = deleted ∧ (s.delete deleted).2.isOk then none else some path
  | _ => some path

/-- **The checkpoint that a deed takes**, if it takes one: where the file is, and what is kept of
it, its checkpoint with the content that it has. -/
def takes (s : MemoryStore) : StoreDeed → Option (String × (Checkpoint × Content))
  | .call (.createCheckpoint path) =>
    match (s.createCheckpoint path).2, s.content? path with
    | .ok checkpoint, some content => some (path, checkpoint, content)
    | _, _ => none
  | _ => none

/-- What a deed takes of the file at a path. -/
def takenAt (s : MemoryStore) (d : StoreDeed) (path : String) : List (Checkpoint × Content) :=
  ((d.takes s).filter (·.1 == path)).toList.map (·.2)

end StoreDeed

namespace MemoryStore

/-- **Where the file at a path is in the end**, unless it was deleted. -/
def follow (s : MemoryStore) : List StoreDeed → String → Option String
  | [], path => some path
  | d :: rest, path => (d.moves s path).bind ((d.apply s).follow rest)

/-- **The checkpoints that were taken of the file that is at a path in the end**, oldest first. -/
def takenOf (s : MemoryStore) : List StoreDeed → String → List (Checkpoint × Content)
  | [], _ => []
  | d :: rest, path =>
    ((d.takes s).filter fun taken =>
        (d.apply s).follow rest taken.1 == some path).toList.map (·.2) ++
      (d.apply s).takenOf rest path

end MemoryStore

/-! ## 2. What a deed does to files -/

namespace StoreDeed

/-- **What a deed does to the files**: nothing; it puts a file at a path, with the checkpoints that
were there; it takes a checkpoint; it moves a file to where none is; it deletes one. -/
inductive Does (s : MemoryStore) (d : StoreDeed) : Prop
  | nothing (files : (d.apply s).files = s.files)
      (count : (d.apply s).checkpointCount = s.checkpointCount)
      (moves : ∀ p, d.moves s p = some p) (takes : d.takes s = none)
  | puts (path : String) (f : StoredFile) (files : (d.apply s).files = s.files.put path f)
      (count : (d.apply s).checkpointCount = s.checkpointCount)
      (checkpoints : f.checkpoints = s.checkpointsAt path)
      (moves : ∀ p, d.moves s p = some p) (takes : d.takes s = none)
  | takes (path : String) (f : StoredFile) (checkpoint : Checkpoint)
      (found : s.files.get? path = some f)
      (files : (d.apply s).files = s.files.put path
        { f with checkpoints := f.checkpoints ++ [(checkpoint, f.content)] })
      (count : (d.apply s).checkpointCount = s.checkpointCount + 1)
      (name : checkpoint.id = MemoryStore.checkpointName s.checkpointCount)
      (moves : ∀ p, d.moves s p = some p) (takes : d.takes s = some (path, checkpoint, f.content))
  | renames (source target : String) (f : StoredFile) (found : s.files.get? source = some f)
      (free : s.files.get? target = none)
      (files : (d.apply s).files = (s.files.erase source).put target f)
      (count : (d.apply s).checkpointCount = s.checkpointCount)
      (moves : ∀ p, d.moves s p = some (if p = source then target else p))
      (takes : d.takes s = none)
  | deletes (path : String) (files : (d.apply s).files = s.files.erase path)
      (count : (d.apply s).checkpointCount = s.checkpointCount)
      (moves : ∀ p, d.moves s p = if p = path then none else some p) (takes : d.takes s = none)

variable {s : MemoryStore} {d : StoreDeed}

/-- A new version takes the checkpoints over. -/
theorem puts_revise (s : MemoryStore) (path : String) (content : Content) :
    ∃ f, (s.revise path content).files = s.files.put path f ∧
      f.checkpoints = s.checkpointsAt path ∧
      (s.revise path content).checkpointCount = s.checkpointCount := by
  unfold MemoryStore.revise MemoryStore.checkpointsAt
  split
  · next old found => exact ⟨_, rfl, by rw [found]; rfl, rfl⟩
  · next free => exact ⟨_, rfl, by rw [free]; rfl, rfl⟩

/-- A deed that makes a new version or is refused, maybe after the store has counted the call. -/
theorem does_of_revise {u : MemoryStore} (files : u.files = s.files)
    (count : u.checkpointCount = s.checkpointCount)
    (done : d.apply s = u ∨ ∃ path content, d.apply s = u.revise path content)
    (moves : ∀ p, d.moves s p = some p) (takes : d.takes s = none) : d.Does s := by
  rcases done with refused | ⟨path, content, revised⟩
  · exact .nothing (refused ▸ files) (refused ▸ count) moves takes
  · obtain ⟨f, put, checkpoints, counted⟩ := puts_revise u path content
    refine .puts path f ?_ ?_ ?_ moves takes
    · rw [revised, put, files]
    · rw [revised, counted, count]
    · rw [checkpoints, MemoryStore.checkpointsAt, files, MemoryStore.checkpointsAt]

/-- What a save does that is over. -/
theorem commit_or_refused (s : MemoryStore) (path : String) (content : Content) :
    (s.commit path content).1 = s ∨
      ∃ path' content', (s.commit path content).1 = s.revise path' content' := by
  rcases s.commit_cases path content with ⟨e, he⟩ | done
  · exact .inl (congrArg Prod.fst he)
  · exact .inr ⟨path, content, congrArg Prod.fst done⟩

theorem does_setWritable (s : MemoryStore) (path : String) (writable : Bool) :
    (setWritable path writable).Does s := by
  cases found : s.files.get? path with
  | none =>
    have same : s.setWritable path writable = s := by rw [MemoryStore.setWritable, found]
    exact .nothing (congrArg (·.files) same) (congrArg (·.checkpointCount) same) (fun _ => rfl) rfl
  | some f =>
    have done : s.setWritable path writable =
        { s with files := s.files.put path { f with writable } } := by
      rw [MemoryStore.setWritable, found]
    refine .puts path { f with writable } (congrArg (·.files) done)
      (congrArg (·.checkpointCount) done) ?_ (fun _ => rfl) rfl
    rw [MemoryStore.checkpointsAt, found]
    rfl

theorem does_rename (s : MemoryStore) (source target : String) :
    (call (.rename source target)).Does s := by
  rcases s.rename_cases source target with ⟨e, he⟩ | ⟨f, found, done⟩
  · refine .nothing ?_ ?_ (fun p => ?_) rfl
    · rw [apply, MemoryStore.perform, he]
    · rw [apply, MemoryStore.perform, he]
    · simp [moves, he, Except.isOk, Except.toBool]
  · have free := MemoryStore.free_of_renamed (congrArg (·.2) done)
    refine .renames source target f found free ?_ ?_ (fun p => ?_) rfl
    · rw [apply, MemoryStore.perform, done]
    · rw [apply, MemoryStore.perform, done]
    · simp only [moves, done, Except.isOk, Except.toBool, and_true]
      split <;> rfl

theorem does_delete (s : MemoryStore) (path : String) : (call (.delete path)).Does s := by
  rcases s.delete_cases path with ⟨e, he⟩ | done
  · refine .nothing ?_ ?_ (fun p => ?_) rfl
    · rw [apply, MemoryStore.perform, he]
    · rw [apply, MemoryStore.perform, he]
    · simp [moves, he, Except.isOk, Except.toBool]
  · refine .deletes path ?_ ?_ (fun p => ?_) rfl
    · rw [apply, MemoryStore.perform, done]
    · rw [apply, MemoryStore.perform, done]
    · simp [moves, done, Except.isOk, Except.toBool]

theorem does_createCheckpoint (s : MemoryStore) (path : String) :
    (call (.createCheckpoint path)).Does s := by
  cases found : s.file path with
  | error e =>
    have he : s.createCheckpoint path = (s, .error e) := by rw [MemoryStore.createCheckpoint, found]
    refine .nothing ?_ ?_ (fun _ => rfl) ?_
    · rw [apply, MemoryStore.perform, he]
    · rw [apply, MemoryStore.perform, he]
    · rw [takes, he]
  | ok f =>
    have there := MemoryStore.get?_of_file found
    refine .takes path f ⟨MemoryStore.checkpointName s.checkpointCount, f.metadata.lastModified⟩
      there ?_ ?_ rfl (fun _ => rfl) ?_
    · simp [apply, MemoryStore.perform, MemoryStore.createCheckpoint, found]
    · simp [apply, MemoryStore.perform, MemoryStore.createCheckpoint, found]
    · simp [StoreDeed.takes, MemoryStore.createCheckpoint, found, MemoryStore.content?, there]

/-- **Every deed does one of these things.** -/
theorem does (d : StoreDeed) (s : MemoryStore) : d.Does s := by
  cases d with
  | write path content =>
    refine does_of_revise rfl rfl ?_ (fun _ => rfl) rfl
    rcases s.write_cases path content with broken | done
    · exact .inl (congrArg Prod.fst broken)
    · exact .inr ⟨path, content, congrArg Prod.fst done⟩
  | setWritable path writable => exact does_setWritable s path writable
  | setClock time => exact .nothing rfl rfl (fun _ => rfl) rfl
  | setConditions available metadataAvailable saveDelay =>
    exact .nothing rfl rfl (fun _ => rfl) rfl
  | commit path content =>
    exact does_of_revise rfl rfl (commit_or_refused s path content) (fun _ => rfl) rfl
  | call r =>
    cases r with
    | get path withContent => cases withContent <;> exact .nothing rfl rfl (fun _ => rfl) rfl
    | save path request =>
      exact does_of_revise (u := s.countSave) rfl rfl
        (commit_or_refused s.countSave path request.content) (fun _ => rfl) rfl
    | rename source target => exact does_rename s source target
    | delete path => exact does_delete s path
    | createCheckpoint path => exact does_createCheckpoint s path
    | listCheckpoints path => exact .nothing rfl rfl (fun _ => rfl) rfl
    | restoreCheckpoint path id =>
      refine does_of_revise rfl rfl ?_ (fun _ => rfl) rfl
      rcases s.restoreCheckpoint_cases path id with ⟨e, he⟩ | ⟨content, done⟩
      · exact .inl (congrArg Prod.fst he)
      · exact .inr ⟨path, content, congrArg Prod.fst done⟩

/-! ## 3. One step -/

/-- **A step keeps the checkpoints in line with the files**: a file that is moved keeps its
checkpoints and gets the one that was taken of it; a file that comes up has none; no two files come
to one path; and a checkpoint gets a name that was never given. -/
structure Keeps (s : MemoryStore) (d : StoreDeed) : Prop where
  has : ∀ {p p'}, s.Has p → d.moves s p = some p' → (d.apply s).Has p'
  kept : ∀ {p p'}, s.Has p → d.moves s p = some p' →
    (d.apply s).checkpointsAt p' = s.checkpointsAt p ++ d.takenAt s p
  born : ∀ {p'}, (∀ p, s.Has p → d.moves s p ≠ some p') → (d.apply s).checkpointsAt p' = []
  apart : ∀ {p q p'}, s.Has p → s.Has q → d.moves s p = some p' → d.moves s q = some p' → p = q
  taken : ∀ {p c}, d.takes s = some (p, c) → s.Has p ∧ d.moves s p = some p ∧
    c.1.id = MemoryStore.checkpointName s.checkpointCount ∧
    s.checkpointCount < (d.apply s).checkpointCount
  grows : s.checkpointCount ≤ (d.apply s).checkpointCount

theorem takenAt_of_none (takes : d.takes s = none) (p : String) : d.takenAt s p = [] := by
  rw [takenAt, takes]
  rfl

theorem checkpointsAt_of_not_has {p : String} (h : ¬ s.Has p) : s.checkpointsAt p = [] := by
  rw [MemoryStore.Has, Option.not_isSome_iff_eq_none] at h
  rw [MemoryStore.checkpointsAt, h]
  rfl

/-- Where no file is moved. -/
theorem Keeps.of_stays (moves : ∀ p, d.moves s p = some p)
    (has : ∀ p, s.Has p → (d.apply s).Has p)
    (kept : ∀ p, (d.apply s).checkpointsAt p = s.checkpointsAt p ++ d.takenAt s p)
    (taken : ∀ {p c}, d.takes s = some (p, c) → s.Has p ∧
      c.1.id = MemoryStore.checkpointName s.checkpointCount ∧
      s.checkpointCount < (d.apply s).checkpointCount)
    (grows : s.checkpointCount ≤ (d.apply s).checkpointCount) : d.Keeps s where
  has {p p'} there moved := by
    obtain rfl : p = p' := Option.some.inj ((moves p).symm.trans moved)
    exact has p there
  kept {p p'} _ moved := by
    obtain rfl : p = p' := Option.some.inj ((moves p).symm.trans moved)
    exact kept p
  born {p'} new := by
    have nowhere : ¬ s.Has p' := fun there => new p' there (moves p')
    have untaken : d.takenAt s p' = [] := by
      rw [takenAt, List.map_eq_nil_iff, Option.toList_eq_nil_iff, Option.filter_eq_none_iff]
      rintro ⟨p, c⟩ took
      refine fun same => nowhere ?_
      rw [← beq_iff_eq.mp same]
      exact (taken took).1
    rw [kept, checkpointsAt_of_not_has nowhere, untaken]
    rfl
  apart {p q p'} _ _ hp hq :=
    Option.some.inj ((moves p).symm.trans (hp.trans (hq.symm.trans (moves q))))
  taken {p c} took := ⟨(taken took).1, moves p, (taken took).2⟩
  grows := grows

theorem checkpointsAt_congr {t : MemoryStore} {p q : String}
    (same : t.files.get? p = s.files.get? q) : t.checkpointsAt p = s.checkpointsAt q := by
  rw [MemoryStore.checkpointsAt, same, MemoryStore.checkpointsAt]

/-- Where a file is moved to a free path. -/
theorem keeps_of_renames {source target : String} {f : StoredFile}
    (found : s.files.get? source = some f) (free : s.files.get? target = none)
    (files : (d.apply s).files = (s.files.erase source).put target f)
    (count : (d.apply s).checkpointCount = s.checkpointCount)
    (moves : ∀ p, d.moves s p = some (if p = source then target else p))
    (takes : d.takes s = none) : d.Keeps s := by
  have now (p : String) : (d.apply s).files.get? p =
      if p = target then some f else if p = source then none else s.files.get? p := by
    rw [files, Table.get?_put, Table.get?_erase]
  have away {p : String} (there : s.Has p) : p ≠ target := by
    rintro rfl
    rw [MemoryStore.Has, free] at there
    cases there
  -- the file at a path is found again where it was moved to
  have moved {p p' : String} (there : s.Has p) (hp : d.moves s p = some p') :
      (d.apply s).files.get? p' = s.files.get? p := by
    obtain rfl := Option.some.inj ((moves p).symm.trans hp)
    by_cases here : p = source
    · rw [if_pos here, now, if_pos rfl, here, found]
    · rw [if_neg here, now, if_neg (away there), if_neg here]
  constructor
  · intro p p' there hp
    rwa [MemoryStore.Has, moved there hp]
  · intro p p' there hp
    rw [takenAt_of_none takes, List.append_nil, checkpointsAt_congr (moved there hp)]
  · intro p' new
    have elsewhere : p' ≠ target := by
      rintro rfl
      refine new source (by rw [MemoryStore.Has, found]; rfl) ?_
      rw [moves, if_pos rfl]
    refine checkpointsAt_of_not_has fun there => ?_
    rw [MemoryStore.Has, now, if_neg elsewhere] at there
    split at there
    · cases there
    · next here => exact new p' there (by rw [moves, if_neg here])
  · intro p q p' hp hq toP toQ
    have same := (moves p).symm.trans (toP.trans (toQ.symm.trans (moves q)))
    have hpt := away hp
    have hqt := away hq
    split at same <;> split at same
    · next hp hq => rw [hp, hq]
    · exact absurd (Option.some.inj same).symm hqt
    · exact absurd (Option.some.inj same) hpt
    · exact Option.some.inj same
  · intro p c took
    rw [takes] at took
    cases took
  · exact Nat.le_of_eq count.symm

/-- Where a file is deleted. -/
theorem keeps_of_deletes {path : String} (files : (d.apply s).files = s.files.erase path)
    (count : (d.apply s).checkpointCount = s.checkpointCount)
    (moves : ∀ p, d.moves s p = if p = path then none else some p)
    (takes : d.takes s = none) : d.Keeps s := by
  have now (p : String) : (d.apply s).files.get? p =
      if p = path then none else s.files.get? p := by
    rw [files, Table.get?_erase]
  have stays {p p' : String} (hp : d.moves s p = some p') : p' = p ∧ p ≠ path := by
    rw [moves] at hp
    split at hp
    · cases hp
    · next here => exact ⟨(Option.some.inj hp).symm, here⟩
  constructor
  · intro p p' there hp
    obtain ⟨rfl, here⟩ := stays hp
    rwa [MemoryStore.Has, now, if_neg here]
  · intro p p' there hp
    obtain ⟨rfl, here⟩ := stays hp
    rw [takenAt_of_none takes, List.append_nil]
    exact checkpointsAt_congr (by rw [now, if_neg here])
  · intro p' new
    refine checkpointsAt_of_not_has fun there => ?_
    rw [MemoryStore.Has, now] at there
    split at there
    · cases there
    · next here => exact new p' there (by rw [moves, if_neg here])
  · intro p q p' _ _ toP toQ
    rw [← (stays toP).1, ← (stays toQ).1]
  · intro p c took
    rw [takes] at took
    cases took
  · exact Nat.le_of_eq count.symm

/-- **Every deed keeps the checkpoints in line with the files.** -/
theorem keeps (d : StoreDeed) (s : MemoryStore) : d.Keeps s := by
  cases d.does s with
  | nothing files count moves takes =>
    refine .of_stays moves (fun p there => ?_) (fun p => ?_) (fun took => ?_)
      (Nat.le_of_eq count.symm)
    · rwa [MemoryStore.Has, files]
    · rw [MemoryStore.checkpointsAt, files, takenAt_of_none takes, List.append_nil,
        MemoryStore.checkpointsAt]
    · rw [takes] at took
      cases took
  | puts path f files count checkpoints moves takes =>
    refine .of_stays moves (fun p there => ?_) (fun p => ?_) (fun took => ?_)
      (Nat.le_of_eq count.symm)
    · rw [MemoryStore.Has, files, Table.get?_put]
      split
      · rfl
      · exact there
    · rw [takenAt_of_none takes, List.append_nil, MemoryStore.checkpointsAt, files, Table.get?_put]
      split
      · next here => rw [here, ← checkpoints, Option.map_some, Option.getD_some]
      · rfl
    · rw [takes] at took
      cases took
  | takes path f checkpoint found files count name moves takes =>
    refine .of_stays moves (fun p there => ?_) (fun p => ?_) (fun {p c} took => ?_)
      (count ▸ Nat.le_succ _)
    · rw [MemoryStore.Has, files, Table.get?_put]
      split
      · rfl
      · exact there
    · rw [MemoryStore.checkpointsAt, files, Table.get?_put, takenAt, takes,
        MemoryStore.checkpointsAt]
      split
      · next here => simp [here, found, Option.filter_some]
      · next elsewhere => simp [Option.filter_some, Ne.symm elsewhere]
    · rw [takes] at took
      obtain ⟨rfl, rfl⟩ := Prod.mk.inj (Option.some.inj took)
      exact ⟨by rw [MemoryStore.Has, found]; rfl, name, count ▸ Nat.lt_succ_self _⟩
  | renames source target f found free files count moves takes =>
    exact keeps_of_renames found free files count moves takes
  | deletes path files count moves takes => exact keeps_of_deletes files count moves takes

end StoreDeed

/-! ## 4. A run -/

namespace MemoryStore

variable {s : MemoryStore} {deeds : List StoreDeed} {p q : String}

theorem follow_cons_eq_some {d : StoreDeed} : s.follow (d :: deeds) p = some q ↔
    ∃ p', d.moves s p = some p' ∧ (d.apply s).follow deeds p' = some q :=
  Option.bind_eq_some_iff

/-- A file that is followed is there in the end. -/
theorem has_after (there : s.Has p) (leads : s.follow deeds p = some q) :
    (s.after deeds).Has q := by
  induction deeds generalizing s p with
  | nil => exact Option.some.inj leads ▸ there
  | cons d rest ih =>
    obtain ⟨p', moved, leads⟩ := follow_cons_eq_some.mp leads
    exact ih ((d.keeps s).has there moved) leads

/-- **No two files come to one path.** -/
theorem follow_inj {p' : String} (there : s.Has p) (there' : s.Has p')
    (leads : s.follow deeds p = some q) (leads' : s.follow deeds p' = some q) : p = p' := by
  induction deeds generalizing s p p' with
  | nil => exact Option.some.inj (leads.trans leads'.symm)
  | cons d rest ih =>
    obtain ⟨r, moved, leads⟩ := follow_cons_eq_some.mp leads
    obtain ⟨r', moved', leads'⟩ := follow_cons_eq_some.mp leads'
    have keeps := d.keeps s
    obtain rfl := ih (keeps.has there moved) (keeps.has there' moved') leads leads'
    exact keeps.apart there there' moved moved'

/-- **In every run the checkpoints of a file are those it had and those that were taken of it**; a
file that came up has had none. -/
theorem checkpointsAt_after (s : MemoryStore) (deeds : List StoreDeed) (q : String) :
    (∀ p, s.Has p → s.follow deeds p = some q →
      (s.after deeds).checkpointsAt q = s.checkpointsAt p ++ s.takenOf deeds q) ∧
    ((∀ p, s.Has p → s.follow deeds p ≠ some q) →
      (s.after deeds).checkpointsAt q = s.takenOf deeds q) := by
  induction deeds generalizing s with
  | nil =>
    constructor
    · intro p there leads
      obtain rfl := Option.some.inj leads
      exact (List.append_nil _).symm
    · intro none
      exact StoreDeed.checkpointsAt_of_not_has fun there => none q there rfl
  | cons d rest ih =>
    have keeps := d.keeps s
    obtain ⟨old, new⟩ := ih (d.apply s)
    constructor
    · intro p there leads
      obtain ⟨p', moved, leads⟩ := follow_cons_eq_some.mp leads
      have same : ((d.takes s).filter fun taken => (d.apply s).follow rest taken.1 == some q) =
          (d.takes s).filter (·.1 == p) := by
        cases took : d.takes s with
        | none => rfl
        | some taken =>
          obtain ⟨here, stays, -⟩ := keeps.taken (p := taken.1) (c := taken.2) took
          have at_path : ((d.apply s).follow rest taken.1 == some q) = (taken.1 == p) := by
            rw [Bool.eq_iff_iff, beq_iff_eq, beq_iff_eq]
            constructor
            · intro led
              obtain rfl := follow_inj (keeps.has here stays) (keeps.has there moved) led leads
              exact keeps.apart here there stays moved
            · intro is
              rw [is, moved] at stays
              rw [is, ← Option.some.inj stays, leads]
          rw [Option.filter_some, Option.filter_some, at_path]
      rw [after_cons, old p' (keeps.has there moved) leads, keeps.kept there moved, takenOf, same,
        List.append_assoc]
      rfl
    · intro none
      have untaken : ((d.takes s).filter fun taken => (d.apply s).follow rest taken.1 == some q) =
          Option.none := by
        rw [Option.filter_eq_none_iff]
        intro taken took led
        obtain ⟨here, stays, -⟩ := keeps.taken (p := taken.1) (c := taken.2) took
        exact none taken.1 here (follow_cons_eq_some.mpr ⟨_, stays, beq_iff_eq.mp led⟩)
      rw [takenOf, untaken, after_cons]
      by_cases came : ∃ p', (d.apply s).Has p' ∧ (d.apply s).follow rest p' = some q
      · obtain ⟨p', there, leads⟩ := came
        have born : (d.apply s).checkpointsAt p' = [] := keeps.born fun p hp moved =>
          none p hp (follow_cons_eq_some.mpr ⟨p', moved, leads⟩)
        rw [old p' there leads, born]
        rfl
      · exact new fun p' there leads => came ⟨p', there, leads⟩

/-- What is taken after a while is taken in the whole run. -/
theorem takenOf_append (s : MemoryStore) (deeds more : List StoreDeed) (q : String) :
    (s.after deeds).takenOf more q <:+ s.takenOf (deeds ++ more) q := by
  induction deeds generalizing s with
  | nil => exact List.suffix_rfl
  | cons d rest ih => exact (ih (d.apply s)).trans (List.suffix_append _ _)

theorem mem_takenOf_cons {d : StoreDeed} {c : Checkpoint × Content}
    (took : d.takes s = some (p, c)) (leads : (d.apply s).follow deeds p = some q) :
    c ∈ s.takenOf (d :: deeds) q := by
  rw [takenOf, took, Option.filter_some, if_pos (beq_iff_eq.mpr leads)]
  exact List.mem_cons_self

/-! ## 5. Names of checkpoints -/

theorem checkpointName_inj {m n : Nat} (h : checkpointName m = checkpointName n) : m = n := by
  have digits : Nat.toDigits 10 m = Nat.toDigits 10 n := by
    have chars := congrArg String.toList h
    rw [checkpointName, checkpointName, String.toList_append, String.toList_append] at chars
    simpa using List.append_cancel_left chars
  rw [← Nat.ofDigitChars_toDigits (b := 10) (n := m) (by decide) (by decide), digits,
    Nat.ofDigitChars_toDigits (by decide) (by decide)]

/-- **Checkpoints that are taken get names of their own.** -/
theorem takenOf_names (s : MemoryStore) (deeds : List StoreDeed) (q : String) :
    (∀ c ∈ s.takenOf deeds q, ∃ n, s.checkpointCount ≤ n ∧ c.1.id = checkpointName n) ∧
      ((s.takenOf deeds q).map (·.1.id)).Nodup := by
  induction deeds generalizing s with
  | nil => exact ⟨nofun, List.nodup_nil⟩
  | cons d rest ih =>
    obtain ⟨names, apart⟩ := ih (d.apply s)
    have keeps := d.keeps s
    have later : ∀ c ∈ (d.apply s).takenOf rest q,
        ∃ n, s.checkpointCount ≤ n ∧ c.1.id = checkpointName n := fun c taken =>
      (names c taken).imp fun n is => ⟨Nat.le_trans keeps.grows is.1, is.2⟩
    rw [takenOf]
    cases took : (d.takes s).filter fun taken => (d.apply s).follow rest taken.1 == some q with
    | none => exact ⟨later, apart⟩
    | some taken =>
      obtain ⟨-, -, name, more⟩ :=
        keeps.taken (p := taken.1) (c := taken.2) (Option.filter_eq_some_iff.mp took).1
      refine ⟨List.forall_mem_cons.mpr ⟨⟨_, Nat.le_refl _, name⟩, later⟩, ?_⟩
      refine List.nodup_cons.mpr ⟨fun again => ?_, apart⟩
      obtain ⟨c, member, same⟩ := List.mem_map.mp again
      obtain ⟨n, given, is⟩ := names c member
      have : n = s.checkpointCount := checkpointName_inj (is.symm.trans (same.trans name))
      omega

/-- A checkpoint is found by its name. -/
theorem find?_id : ∀ {checkpoints : List (Checkpoint × Content)} {c : Checkpoint × Content},
    (checkpoints.map (·.1.id)).Nodup → c ∈ checkpoints →
    checkpoints.find? (·.1.id == c.1.id) = some c
  | d :: rest, c, apart, member => by
    rw [List.map_cons, List.nodup_cons] at apart
    rcases List.mem_cons.mp member with rfl | member
    · rw [List.find?_cons_of_pos (by simp)]
    · have other : (d.1.id == c.1.id) = false :=
        beq_eq_false_iff_ne.mpr fun same => apart.1 (same ▸ List.mem_map_of_mem member)
      rw [List.find?_cons_of_neg (by simp [other]), find?_id apart.2 member]

/-! ## 6. Restoring -/

theorem file_of_available (available : s.available = true) {f : StoredFile}
    (found : s.files.get? p = some f) : s.file p = .ok f := by
  rw [MemoryStore.file, requireAvailable, if_pos available, found]
  rfl

/-- A new version of a file that is there has another content and other metadata, and nothing else
is changed. -/
theorem revise_of_found {f : StoredFile} (found : s.files.get? p = some f) (content : Content) :
    (s.revise p content).files =
      s.files.put p { f with content, metadata := ⟨s.nextTime, content.size⟩ } := by
  rw [revise, found]

/-- **A checkpoint of the file is written again.** -/
theorem restoreCheckpoint_of_mem (available : s.available = true) {f : StoredFile}
    (found : s.files.get? p = some f) (apart : (f.checkpoints.map (·.1.id)).Nodup)
    {c : Checkpoint × Content} (member : c ∈ f.checkpoints) :
    s.restoreCheckpoint p c.1.id =
      ((s.write p c.2).1, (s.write p c.2).2.map fun _ => ()) := by
  rw [restoreCheckpoint, file_of_available available found]
  simp only [find?_id apart member]

/-- **To restore what cannot be restored changes nothing.** -/
theorem restoreCheckpoint_failed {id : String} {e : StoreError}
    (failed : (s.restoreCheckpoint p id).2 = .error e) : (s.restoreCheckpoint p id).1 = s := by
  rcases s.restoreCheckpoint_cases p id with ⟨e', he⟩ | ⟨content, done⟩
  · rw [he]
  · rw [done] at failed
    cases failed

/-- What a checkpoint that is taken keeps. -/
theorem takes_of_created {checkpoint : Checkpoint}
    (created : (s.createCheckpoint p).2 = .ok checkpoint) :
    ∃ content, s.content? p = some content ∧
      (StoreDeed.call (.createCheckpoint p)).takes s = some (p, checkpoint, content) := by
  cases found : s.file p with
  | error e =>
    rw [createCheckpoint, found] at created
    cases created
  | ok f =>
    have content : s.content? p = some f.content := by
      rw [content?, get?_of_file found]
      rfl
    exact ⟨f.content, content, by rw [StoreDeed.takes, created, content]⟩

/-- **In every run from an empty store a file has the checkpoints that were taken of it.** -/
theorem checkpoints_eq_takenOf {deeds : List StoreDeed} {f : StoredFile}
    (found : (after {} deeds).files.get? q = some f) : f.checkpoints = takenOf {} deeds q := by
  have now := (checkpointsAt_after {} deeds q).2 fun p there => nomatch there
  rw [checkpointsAt, found] at now
  exact now

end MemoryStore

/-! ## 7. The theorem -/

open MemoryStore in
/-- **Checkpoints are faithful.**  In any run of a store a checkpoint is taken of a file, and the
run goes on in any way in which the file is not deleted; it comes to a path, by moves or because it
stays.  While the store is available,

* the checkpoints that are listed there are those that were taken of this file, oldest first;
* as long as the greatest time has not been given, to restore the checkpoint succeeds: the file has
  the content again that it had when the checkpoint was taken, and a time that is later than all
  that was seen before; its checkpoints and whether it is writable stay, and so does every other
  file;
* once it has, there is no later time, and the call breaks off.

And to restore what cannot be restored changes nothing. -/
theorem checkpoints_are_faithful (first rest : List StoreDeed) (path current : String)
    (checkpoint : Checkpoint)
    (created : ((after {} first).createCheckpoint path).2 = .ok checkpoint)
    (leads : ((after {} first).createCheckpoint path).1.follow rest path = some current)
    (available : (after {} (first ++ .call (.createCheckpoint path) :: rest)).available = true) :
    let deeds := first ++ .call (.createCheckpoint path) :: rest
    let s := after {} deeds
    let t := (s.restoreCheckpoint current checkpoint.id).1
    (∃ f content, s.files.get? current = some f ∧
      (after {} first).content? path = some content ∧
      s.listCheckpoints current = .ok ((takenOf {} deeds current).map (·.1)) ∧
      (s.lastTime < greatestTime →
        (s.restoreCheckpoint current checkpoint.id).2 = .ok () ∧
        ∃ time, t.files.get? current = some { f with content, metadata := ⟨time, content.size⟩ } ∧
          t.listCheckpoints current = s.listCheckpoints current ∧
          (∀ p, p ≠ current → t.files.get? p = s.files.get? p) ∧
          ∀ a, Seen {} deeds a → a.lastModified < time) ∧
      (greatestTime ≤ s.lastTime →
        (s.restoreCheckpoint current checkpoint.id).2 = .error .overflow)) ∧
    ∀ p id e, (s.restoreCheckpoint p id).2 = .error e → (s.restoreCheckpoint p id).1 = s := by
  intro deeds s t
  obtain ⟨content, was, took⟩ := takes_of_created created
  -- the file is still there, with the checkpoint among those that were taken of it
  have there : (after {} first).Has path := ((StoreDeed.keeps _ _).taken took).1
  have further : s = ((after {} first).createCheckpoint path).1.after rest := List.foldl_append
  have has : s.Has current := by
    rw [further]
    exact has_after ((StoreDeed.keeps _ _).has there ((StoreDeed.keeps _ _).taken took).2.1) leads
  obtain ⟨f, found⟩ := Option.isSome_iff_exists.mp has
  have taken : f.checkpoints = takenOf {} deeds current := checkpoints_eq_takenOf found
  have member : (checkpoint, content) ∈ f.checkpoints := by
    rw [taken]
    exact (takenOf_append {} first _ current).mem (mem_takenOf_cons took leads)
  have apart : (f.checkpoints.map (·.1.id)).Nodup := taken ▸ (takenOf_names {} deeds current).2
  have done := restoreCheckpoint_of_mem available found apart member
  have listed {u : MemoryStore} {g : StoredFile} (on : u.available = true)
      (here : u.files.get? current = some g) :
      u.listCheckpoints current = .ok (g.checkpoints.map (·.1)) := by
    rw [listCheckpoints, file_of_available on here]
    rfl
  refine ⟨⟨f, content, found, was, ?_, fun below => ?_, fun given => ?_⟩,
    fun p id e => restoreCheckpoint_failed⟩
  · rw [listed available found, taken]
  · rw [write_of_lt below] at done
    have revised : t = s.revise current content := congrArg Prod.fst done
    have restored : t.files.get? current =
        some { f with content, metadata := ⟨s.nextTime, content.size⟩ } := by
      rw [revised, revise_of_found found, Table.get?_put, if_pos rfl]
    refine ⟨congrArg Prod.snd done, s.nextTime, restored, ?_, fun p other => ?_, fun a seen => ?_⟩
    · rw [listed (revised ▸ available) restored, listed available found]
    · rw [revised, revise_of_found found, Table.get?_put, if_neg other]
    · have dated : Dated s (editions {} deeds) := by simpa using Dated.empty.after deeds
      obtain ⟨e, made, shows⟩ := Dated.empty.seen seen
      rw [shows.lastModified]
      exact Int.lt_of_le_of_lt (dated.given e (by simpa using made)) s.lastTime_lt_nextTime
  · rw [done, write, if_neg (Int.not_lt.mpr given)]
    rfl

namespace StoreDeed

/-- A file is written. -/
def written : List StoreDeed := [.write "a.txt" (.text "one")]

/-- A file with a checkpoint is moved, another one is written where it was, and gets a checkpoint
too; the first one is saved, gets another checkpoint and is closed for writing. -/
def movedAndSaved : List StoreDeed :=
  [.call (.rename "a.txt" "c.txt"), .write "a.txt" (.text "three"),
    .call (.createCheckpoint "a.txt"), .call (.save "c.txt" ⟨"text", .text "four"⟩),
    .call (.createCheckpoint "c.txt"), .setWritable "c.txt" false]

end StoreDeed

open MemoryStore StoreDeed in
/-- The file at `c.txt` has the first and the third checkpoint, and its first content again though
it is closed for writing. -/
theorem checkpoints_are_faithful_moved :
    let deeds := written ++ .call (.createCheckpoint "a.txt") :: movedAndSaved
    let t := ((after {} deeds).restoreCheckpoint "c.txt" "cp0").1
    (takenOf {} deeds "c.txt").map (·.1.id) = ["cp0", "cp2"] ∧
    (after {} deeds).content? "c.txt" = some (.text "four") ∧
    t.content? "c.txt" = some (.text "one") ∧
    (t.files.get? "c.txt").map (·.writable) = some false ∧
    ∃ f, t.files.get? "c.txt" = some f ∧
      ∀ a, Seen {} deeds a → a.lastModified < f.metadata.lastModified := by
  intro deeds t
  obtain ⟨⟨f, content, found, was, -, restores, -⟩, -⟩ :=
    checkpoints_are_faithful written movedAndSaved "a.txt" "c.txt" ⟨"cp0", 1⟩ (by rfl)
      (by decide +kernel) (by decide +kernel)
  obtain ⟨-, time, restored, -, -, later⟩ := restores (by decide +kernel)
  have one : content = .text "one" := by
    have is : (after {} written).content? "a.txt" = some (.text "one") := by rfl
    exact Option.some.inj (was.symm.trans is)
  refine ⟨by decide +kernel, by rfl, ?_, by decide +kernel, _, restored, later⟩
  rw [content?, restored, one]
  rfl

open MemoryStore in
/-- **Where the greatest time has been given**, a checkpoint that is there is not restored. -/
theorem checkpoint_not_restored_at_greatestTime :
    let deeds : List StoreDeed := [.setClock greatestTime, .write "a.txt" (.text "one"),
      .call (.createCheckpoint "a.txt")]
    let s := after {} deeds
    let t := (s.restoreCheckpoint "a.txt" "cp0").1
    s.available = true ∧
    s.listCheckpoints "a.txt" = .ok [⟨"cp0", greatestTime⟩] ∧
    (s.restoreCheckpoint "a.txt" "cp0").2 = .error .overflow ∧
    (t.files.get? "a.txt").map (·.metadata) = some ⟨greatestTime, 3⟩ ∧
    (t.files.get? "a.txt").map (·.content) = some (.text "one") := by
  refine ⟨by rfl, by decide +kernel, by decide +kernel, by decide +kernel, by rfl⟩

end Folio
