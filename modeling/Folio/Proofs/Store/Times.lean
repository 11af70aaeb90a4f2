/-
# Modification times

A modification time names one version of a file for good.  Whatever happens to a store, a version is
made by a write, a save or the restoring of a checkpoint, and gets a time later than all given
before; everything else carries versions about without changing them: files are moved, deleted,
marked and remembered in checkpoints (`StoreDeed.writes_or_carries`).

So what a store shows, at any moment and under any path, shows one of the versions made, and the
time that it shows tells which (`lastModified_identifies_edition`).  The wall clock may stand still
or go back meanwhile.  Where the greatest time has been given, no write is done any more; that
sixty-four bits suffice is needed only for there to be a time.
-/
import Folio.Proofs.Store.Calls
import Mathlib.Data.List.Nodup

namespace Folio

/-! ## 1. What happens to a store -/

/-- **What happens to a store.**  A save is a call; it is a `commit` where its delay is over. -/
inductive StoreDeed where
  | write (path : String) (content : Content)
  | setWritable (path : String) (writable : Bool)
  | setClock (time : Int)
  | setConditions (available metadataAvailable : Bool) (saveDelay : Option Nat)
  | call (r : StoreRequest)
  | commit (path : String) (content : Content)

/-- **A version of a file**: what is known of it, and its content. -/
structure Edition where
  metadata : Metadata
  content : Content

/-- The version that a file is at. -/
def StoredFile.edition (f : StoredFile) : Edition := ⟨f.metadata, f.content⟩

/-- **What is seen of a file**: a modification time, and maybe a size and a content. -/
structure Sighting where
  lastModified : Int
  size : Option Nat := none
  content : Option Content := none

/-- What is seen is the version. -/
structure Sighting.Shows (a : Sighting) (e : Edition) : Prop where
  lastModified : a.lastModified = e.metadata.lastModified
  size : ∀ n ∈ a.size, n = e.metadata.size
  content : ∀ c ∈ a.content, c = e.content

/-- What the answer of a call lets see. -/
def StoreRequest.sightings : (r : StoreRequest) → r.Reply → List Sighting
  | .get _ _, .ok file => [⟨file.metadata.lastModified, some file.metadata.size, file.content⟩]
  | .save _ request, .ok m => [⟨m.lastModified, some m.size, some request.content⟩]
  | .rename _ _, .ok m => [⟨m.lastModified, some m.size, none⟩]
  | .createCheckpoint _, .ok checkpoint => [⟨checkpoint.lastModified, none, none⟩]
  | .listCheckpoints _, .ok checkpoints => checkpoints.map fun c => ⟨c.lastModified, none, none⟩
  | _, _ => []

/-- **What is to be seen in a store**: its files, and what their checkpoints remember. -/
inductive MemoryStore.Displays (s : MemoryStore) : Sighting → Prop
  | file {path : String} {f : StoredFile} (found : s.files.get? path = some f) :
      s.Displays ⟨f.metadata.lastModified, some f.metadata.size, some f.content⟩
  | checkpoint {path : String} {f : StoredFile} {c : Checkpoint × Content}
      (found : s.files.get? path = some f) (taken : c ∈ f.checkpoints) :
      s.Displays ⟨c.1.lastModified, none, some c.2⟩

namespace StoreDeed

/-- What becomes of the store. -/
def apply (s : MemoryStore) : StoreDeed → MemoryStore
  | .write path content => (s.write path content).1
  | .setWritable path writable => s.setWritable path writable
  | .setClock time => { s with wallClock := time }
  | .setConditions available metadataAvailable saveDelay =>
    { s with available, metadataAvailable, saveDelay }
  | .call r => (s.perform r).1
  | .commit path content => (s.commit path content).1

/-- What whoever does it gets to see. -/
def sightings (s : MemoryStore) : StoreDeed → List Sighting
  | .write path content =>
    StoreRequest.sightings (.save path ⟨"", content⟩) (s.write path content).2
  | .call r => r.sightings (s.perform r).2
  | .commit path content =>
    StoreRequest.sightings (.save path ⟨"", content⟩) (s.commit path content).2
  | _ => []

/-- **The version that is made**, if one is. -/
def edition? (s : MemoryStore) : StoreDeed → Option Edition
  | .write path content => (s.write path content).2.toOption.map fun m => ⟨m, content⟩
  | .call (.save path request) =>
    (s.perform (.save path request)).2.toOption.map fun m => ⟨m, request.content⟩
  | .call (.restoreCheckpoint path id) =>
    match s.restoreCheckpoint path id with
    | (after, .ok ()) => (after.files.get? path).map (·.edition)
    | (_, .error _) => none
  | .commit path content => (s.commit path content).2.toOption.map fun m => ⟨m, content⟩
  | _ => none

end StoreDeed

namespace MemoryStore

/-- What a store has become in the end. -/
def after (s : MemoryStore) (deeds : List StoreDeed) : MemoryStore := deeds.foldl StoreDeed.apply s

/-- **The versions that were made**, oldest first. -/
def editions (s : MemoryStore) : List StoreDeed → List Edition
  | [] => []
  | d :: rest => (d.edition? s).toList ++ (d.apply s).editions rest

/-- **It was seen at some moment**: in the store itself, or in the answer of a call. -/
def Seen (s : MemoryStore) : List StoreDeed → Sighting → Prop
  | [], a => s.Displays a
  | d :: rest, a => s.Displays a ∨ a ∈ d.sightings s ∨ (d.apply s).Seen rest a

/-- **Sixty-four bits suffice**: the greatest time is never given. -/
def Endures (s : MemoryStore) (deeds : List StoreDeed) : Prop :=
  ∀ first, first <+: deeds → (s.after first).lastTime < greatestTime

variable {s t : MemoryStore}

@[simp] theorem after_nil (s : MemoryStore) : s.after [] = s := rfl

@[simp] theorem after_cons (s : MemoryStore) (d : StoreDeed) (rest : List StoreDeed) :
    s.after (d :: rest) = (d.apply s).after rest := rfl

theorem Endures.now {deeds : List StoreDeed} (h : s.Endures deeds) : s.lastTime < greatestTime :=
  h [] List.nil_prefix

theorem Endures.tail {d : StoreDeed} {rest : List StoreDeed} (h : s.Endures (d :: rest)) :
    (d.apply s).Endures rest := fun first before =>
  h (d :: first) (List.cons_prefix_cons.mpr ⟨rfl, before⟩)

theorem endures_cons {d : StoreDeed} {rest : List StoreDeed} :
    s.Endures (d :: rest) ↔ s.lastTime < greatestTime ∧ (d.apply s).Endures rest := by
  refine ⟨fun h => ⟨h.now, h.tail⟩, fun ⟨now, tail⟩ first before => ?_⟩
  cases first with
  | nil => exact now
  | cons e others =>
    obtain ⟨rfl, shorter⟩ := List.cons_prefix_cons.mp before
    exact tail others shorter

/-- Whether sixty-four bits suffice can be computed along the run. -/
def Endures.decide (s : MemoryStore) : (deeds : List StoreDeed) → Decidable (s.Endures deeds)
  | [] => decidable_of_iff (s.lastTime < greatestTime)
      ⟨fun now _ before => List.prefix_nil.mp before ▸ now, Endures.now⟩
  | d :: rest =>
    have := Endures.decide (d.apply s) rest
    decidable_of_iff _ endures_cons.symm

instance (s : MemoryStore) (deeds : List StoreDeed) : Decidable (s.Endures deeds) :=
  Endures.decide s deeds

/-! ## 2. What is done to versions -/

/-- **A new version is written**, and nothing else happens to the files. -/
structure Writes (s : MemoryStore) (path : String) (content : Content) (t : MemoryStore) :
    Prop where
  files : t.files = (s.revise path content).files
  lastTime : t.lastTime = s.nextTime

/-- **Versions are only carried about**: each file was there, maybe under another path, no file has
become two, and a checkpoint remembers a version that was there. -/
structure Carries (s t : MemoryStore) : Prop where
  lastTime : t.lastTime = s.lastTime
  files : ∃ origin : String → String,
    (∀ {path f}, t.files.get? path = some f → ∃ g, s.files.get? (origin path) = some g ∧
      f.edition = g.edition ∧ ∀ c ∈ f.checkpoints,
        c ∈ g.checkpoints ∨ (c.1.lastModified = g.metadata.lastModified ∧ c.2 = g.content)) ∧
    ∀ {p q f g}, t.files.get? p = some f → t.files.get? q = some g → origin p = origin q → p = q

theorem Carries.of_files (files : t.files = s.files) (lastTime : t.lastTime = s.lastTime) :
    s.Carries t :=
  ⟨lastTime, id, fun found => ⟨_, files ▸ found, rfl, fun _ => Or.inl⟩, fun _ _ => id⟩

/-- A file is marked, or gets a checkpoint. -/
theorem Carries.of_put {path : String} {f g : StoredFile} (found : s.files.get? path = some g)
    (files : t.files = s.files.put path f) (lastTime : t.lastTime = s.lastTime)
    (same : f.edition = g.edition) (checkpoints : ∀ c ∈ f.checkpoints,
      c ∈ g.checkpoints ∨ (c.1.lastModified = g.metadata.lastModified ∧ c.2 = g.content)) :
    s.Carries t := by
  refine ⟨lastTime, id, fun {p h} there => ?_, fun _ _ => id⟩
  rw [files, Table.get?_put] at there
  split at there
  · next here =>
    cases there
    exact ⟨g, here ▸ found, same, checkpoints⟩
  · exact ⟨h, there, rfl, fun _ => Or.inl⟩

theorem carries_setWritable (s : MemoryStore) (path : String) (writable : Bool) :
    s.Carries (s.setWritable path writable) := by
  unfold setWritable
  split
  · next f found => exact .of_put found rfl rfl rfl fun _ => Or.inl
  · exact .of_files rfl rfl

theorem carries_createCheckpoint (s : MemoryStore) (path : String) :
    s.Carries (s.createCheckpoint path).1 := by
  unfold createCheckpoint
  split
  · exact .of_files rfl rfl
  · next f found =>
    refine .of_put (get?_of_file found) rfl rfl rfl fun c taken => ?_
    rcases List.mem_append.mp taken with taken | taken
    · exact .inl taken
    · rw [List.mem_singleton.mp taken]
      exact .inr ⟨rfl, rfl⟩

theorem carries_delete (s : MemoryStore) (path : String) : s.Carries (s.delete path).1 := by
  rcases s.delete_cases path with ⟨e, he⟩ | deleted
  · rw [he]
    exact .of_files rfl rfl
  · rw [deleted]
    refine ⟨rfl, id, fun {p f} there => ⟨f, ?_, rfl, fun _ => Or.inl⟩, fun _ _ => id⟩
    rw [Table.get?_erase] at there
    split at there
    · cases there
    · exact there

theorem carries_rename (s : MemoryStore) (source target : String) :
    s.Carries (s.rename source target).1 := by
  rcases s.rename_cases source target with ⟨e, he⟩ | ⟨f, found, moved⟩
  · rw [he]
    exact .of_files rfl rfl
  · rw [moved]
    have there {p : String} {g : StoredFile}
        (h : ((s.files.erase source).put target f).get? p = some g) :
        (p = target ∧ g = f) ∨ (p ≠ target ∧ p ≠ source ∧ s.files.get? p = some g) := by
      rw [Table.get?_put, Table.get?_erase] at h
      split at h
      · next here => exact .inl ⟨here, (Option.some.inj h).symm⟩
      · next elsewhere =>
        split at h
        · cases h
        · next stays => exact .inr ⟨elsewhere, stays, h⟩
    refine ⟨rfl, fun p => if p = target then source else p, fun {p g} h => ?_,
      fun {p q g h} hp hq same => ?_⟩
    · rcases there h with ⟨rfl, rfl⟩ | ⟨elsewhere, -, kept⟩
      · exact ⟨g, by simpa using found, rfl, fun _ => Or.inl⟩
      · exact ⟨g, by simpa [elsewhere] using kept, rfl, fun _ => Or.inl⟩
    · rcases there hp with ⟨rfl, -⟩ | ⟨hp, ps, -⟩ <;> rcases there hq with ⟨rfl, -⟩ | ⟨hq, qs, -⟩
      · rfl
      · exact absurd (by simpa [hq] using same.symm) qs
      · exact absurd (by simpa [hp] using same) ps
      · simpa [hp, hq] using same

end MemoryStore

open MemoryStore

/-- **Whatever is done to a store** either writes one new version, which is the one that it makes,
or makes none and carries about those there are. -/
theorem StoreDeed.writes_or_carries (s : MemoryStore) (d : StoreDeed) :
    (∃ path content, s.Writes path content (d.apply s) ∧
        d.edition? s = some ⟨⟨s.nextTime, content.size⟩, content⟩) ∨
      (s.Carries (d.apply s) ∧ d.edition? s = none) := by
  cases d with
  | write path content =>
    rcases s.write_cases path content with broken | done
    · exact .inr ⟨by rw [apply, broken]; exact .of_files rfl rfl, by rw [edition?, broken]; rfl⟩
    · exact .inl ⟨path, content, by rw [apply, done]; exact ⟨rfl, rfl⟩, by rw [edition?, done]; rfl⟩
  | setWritable path writable => exact .inr ⟨s.carries_setWritable path writable, rfl⟩
  | setClock time => exact .inr ⟨.of_files rfl rfl, rfl⟩
  | setConditions a m d => exact .inr ⟨.of_files rfl rfl, rfl⟩
  | commit path content =>
    rcases s.commit_cases path content with ⟨e, he⟩ | done
    · exact .inr ⟨by rw [apply, he]; exact .of_files rfl rfl, by rw [edition?, he]; rfl⟩
    · exact .inl ⟨path, content, by rw [apply, done]; exact ⟨rfl, rfl⟩, by rw [edition?, done]; rfl⟩
  | call r =>
    cases r with
    | get path withContent =>
      refine .inr ⟨?_, rfl⟩
      cases withContent <;> exact .of_files rfl rfl
    | save path request =>
      rcases s.countSave.commit_cases path request.content with ⟨e, he⟩ | done
      · exact .inr ⟨by rw [apply, perform, he]; exact .of_files rfl rfl,
          by rw [edition?, perform, he]; rfl⟩
      · exact .inl ⟨path, request.content, by rw [apply, perform, done]; exact ⟨rfl, rfl⟩,
          by rw [edition?, perform, done]; rfl⟩
    | rename source target => exact .inr ⟨s.carries_rename source target, rfl⟩
    | delete path => exact .inr ⟨s.carries_delete path, rfl⟩
    | createCheckpoint path => exact .inr ⟨s.carries_createCheckpoint path, rfl⟩
    | listCheckpoints path => exact .inr ⟨.of_files rfl rfl, rfl⟩
    | restoreCheckpoint path id =>
      rcases s.restoreCheckpoint_cases path id with ⟨e, he⟩ | ⟨content, done⟩
      · exact .inr ⟨by rw [apply, perform, he]; exact .of_files rfl rfl, by rw [edition?, he]⟩
      · obtain ⟨f, files, metadata, is, -⟩ := s.get?_revise path content
        refine .inl ⟨path, content, by rw [apply, perform, done]; exact ⟨rfl, rfl⟩, ?_⟩
        simp only [edition?, done, files, Table.get?_put, if_true, Option.map_some,
          StoredFile.edition, metadata, is]

/-! ## 3. Every version is dated -/

/-- **The versions made so far are dated**: each is later than those before it, and what is in the
store is of one of them, no two files of the same. -/
structure Dated (s : MemoryStore) (made : List Edition) : Prop where
  given : ∀ e ∈ made, e.metadata.lastModified ≤ s.lastTime
  ordered : made.Pairwise (·.metadata.lastModified < ·.metadata.lastModified)
  sized : ∀ e ∈ made, e.metadata.size = e.content.size
  files : ∀ {path f}, s.files.get? path = some f → f.edition ∈ made
  checkpoints : ∀ {path f c}, s.files.get? path = some f → c ∈ f.checkpoints →
    ∃ e ∈ made, c.1.lastModified = e.metadata.lastModified ∧ c.2 = e.content
  distinct : ∀ {p q f g}, s.files.get? p = some f → s.files.get? q = some g →
    f.metadata.lastModified = g.metadata.lastModified → p = q

namespace Dated

variable {s t : MemoryStore} {made : List Edition}

/-- In a store without files nothing was made. -/
theorem empty : Dated {} [] where
  given := by simp
  ordered := .nil
  sized := by simp
  files := nofun
  checkpoints := nofun
  distinct := nofun

/-- Every file is as old as the last time at most. -/
theorem lastModified_le (h : Dated s made) {path : String} {f : StoredFile}
    (found : s.files.get? path = some f) : f.metadata.lastModified ≤ s.lastTime :=
  h.given f.edition (h.files found)

/-- **Writing** makes one version more, later than all others. -/
theorem writes (h : Dated s made) {path : String} {content : Content}
    (writes : s.Writes path content t) :
    Dated t (made ++ [⟨⟨s.nextTime, content.size⟩, content⟩]) := by
  obtain ⟨w, files, metadata, is, checkpoints⟩ := s.get?_revise path content
  have edition : w.edition = ⟨⟨s.nextTime, content.size⟩, content⟩ := by
    rw [StoredFile.edition, metadata, is]
  have later := s.lastTime_lt_nextTime
  have lastTime := writes.lastTime
  have there {p : String} {f : StoredFile} (found : t.files.get? p = some f) :
      (p = path ∧ f = w) ∨ (p ≠ path ∧ s.files.get? p = some f) := by
    rw [writes.files, files, Table.get?_put] at found
    split at found
    · next here => exact .inl ⟨here, (Option.some.inj found).symm⟩
    · next elsewhere => exact .inr ⟨elsewhere, found⟩
  have new : w.metadata.lastModified = s.nextTime := by rw [metadata]
  refine ⟨fun e member => ?_, ?_, fun e member => ?_, fun {p f} found => ?_,
    fun {p f c} found taken => ?_, fun {p q f g} hp hq same => ?_⟩
  · rcases List.mem_append.mp member with member | member
    · have := h.given e member
      omega
    · rw [List.mem_singleton.mp member]
      exact Int.le_of_eq lastTime.symm
  · refine List.pairwise_append.mpr
      ⟨h.ordered, List.pairwise_singleton _ _, fun e member a new => ?_⟩
    rw [List.mem_singleton.mp new]
    exact Int.lt_of_le_of_lt (h.given e member) later
  · rcases List.mem_append.mp member with member | member
    · exact h.sized e member
    · rw [List.mem_singleton.mp member]
  · rcases there found with ⟨-, rfl⟩ | ⟨-, kept⟩
    · exact List.mem_append_right _ (edition ▸ List.mem_singleton_self _)
    · exact List.mem_append_left _ (h.files kept)
  · have remembered : ∃ p f, s.files.get? p = some f ∧ c ∈ f.checkpoints := by
      rcases there found with ⟨-, rfl⟩ | ⟨-, kept⟩
      · obtain ⟨old, found, taken⟩ := checkpoints c taken
        exact ⟨path, old, found, taken⟩
      · exact ⟨p, f, kept, taken⟩
    obtain ⟨p, f, found, taken⟩ := remembered
    obtain ⟨e, member, is⟩ := h.checkpoints found taken
    exact ⟨e, List.mem_append_left _ member, is⟩
  · -- a file that stayed is older than the one that was written
    rcases there hp with ⟨rfl, rfl⟩ | ⟨-, hp⟩ <;> rcases there hq with ⟨rfl, rfl⟩ | ⟨-, hq⟩
    · rfl
    · have := h.lastModified_le hq
      omega
    · have := h.lastModified_le hp
      omega
    · exact h.distinct hp hq same

/-- **Carrying versions about** makes none. -/
theorem carries (h : Dated s made) (carries : s.Carries t) : Dated t made := by
  obtain ⟨lastTime, origin, comes, apart⟩ := carries
  refine ⟨lastTime ▸ h.given, h.ordered, h.sized, fun {p f} found => ?_,
    fun {p f c} found taken => ?_, fun {p q f g} hp hq same => ?_⟩
  · obtain ⟨g, there, same, -⟩ := comes found
    exact same ▸ h.files there
  · obtain ⟨g, there, -, checkpoints⟩ := comes found
    rcases checkpoints c taken with taken | is
    · exact h.checkpoints there taken
    · exact ⟨g.edition, h.files there, is⟩
  · obtain ⟨a, ha, fa, -⟩ := comes hp
    obtain ⟨b, hb, gb, -⟩ := comes hq
    refine apart hp hq (h.distinct ha hb ?_)
    calc a.metadata.lastModified
      _ = f.metadata.lastModified := congrArg (·.metadata.lastModified) fa.symm
      _ = g.metadata.lastModified := same
      _ = b.metadata.lastModified := congrArg (·.metadata.lastModified) gb

/-- **Whatever is done**, the versions stay dated. -/
theorem apply (h : Dated s made) (d : StoreDeed) :
    Dated (d.apply s) (made ++ (d.edition? s).toList) := by
  rcases d.writes_or_carries s with ⟨path, content, writes, made⟩ | ⟨carries, none⟩
  · rw [made]
    exact h.writes writes
  · rw [none, Option.toList_none, List.append_nil]
    exact h.carries carries

/-- **In every run** the versions stay dated. -/
theorem after (h : Dated s made) (deeds : List StoreDeed) :
    Dated (s.after deeds) (made ++ s.editions deeds) := by
  induction deeds generalizing s made with
  | nil => simpa [editions] using h
  | cons d rest ih =>
    rw [after_cons, editions, ← List.append_assoc]
    exact ih (h.apply d)

/-- The time tells which version it is. -/
theorem eq_of_lastModified (h : Dated s made) {d e : Edition} (hd : d ∈ made) (he : e ∈ made)
    (same : d.metadata.lastModified = e.metadata.lastModified) : d = e := by
  have apart : (made.map (·.metadata.lastModified)).Nodup :=
    List.pairwise_map.mpr (h.ordered.imp Int.ne_of_lt)
  exact List.inj_on_of_nodup_map apart hd he same

/-! ## 4. Whatever is seen is a version -/

/-- A file shows the version that it is at. -/
theorem shows_file {f : StoredFile} {content : Option Content} (is : ∀ c ∈ content, c = f.content) :
    Sighting.Shows ⟨f.metadata.lastModified, some f.metadata.size, content⟩ f.edition :=
  ⟨rfl, by rintro n ⟨⟩; rfl, is⟩

theorem displays (h : Dated s made) {a : Sighting} (seen : s.Displays a) :
    ∃ e ∈ made, a.Shows e := by
  cases seen with
  | @file path f found => exact ⟨f.edition, h.files found, shows_file (by rintro c ⟨⟩; rfl)⟩
  | @checkpoint path f c found taken =>
    obtain ⟨e, member, time, content⟩ := h.checkpoints found taken
    exact ⟨e, member, time, nofun, by rintro _ ⟨⟩; exact content⟩

/-- The name and time of a checkpoint show the version that it was taken of. -/
theorem shows_checkpoint (h : Dated s made) {path : String} {f : StoredFile}
    {c : Checkpoint × Content} (found : s.files.get? path = some f) (taken : c ∈ f.checkpoints) :
    ∃ e ∈ made, Sighting.Shows ⟨c.1.lastModified, none, none⟩ e := by
  obtain ⟨e, member, time, -⟩ := h.checkpoints found taken
  exact ⟨e, member, time, nofun, nofun⟩

/-- **The answer of a call** shows a version that was there, or the one that the call has made. -/
theorem sightings (h : Dated s made) (d : StoreDeed) {a : Sighting} (seen : a ∈ d.sightings s) :
    ∃ e ∈ made ++ (d.edition? s).toList, a.Shows e := by
  have before {a : Sighting} : (∃ e ∈ made, a.Shows e) →
      ∃ e ∈ made ++ (d.edition? s).toList, a.Shows e :=
    fun ⟨e, member, is⟩ => ⟨e, List.mem_append_left _ member, is⟩
  have written (m : Metadata) (content : Content) (is : d.edition? s = some ⟨m, content⟩) :
      ∃ e ∈ made ++ (d.edition? s).toList,
        Sighting.Shows ⟨m.lastModified, some m.size, some content⟩ e :=
    ⟨⟨m, content⟩, List.mem_append_right _ (by simp [is]), rfl, by rintro n ⟨⟩; rfl,
      by rintro c ⟨⟩; rfl⟩
  cases d with
  | write path content =>
    rcases s.write_cases path content with broken | done
    · rw [StoreDeed.sightings, broken] at seen
      cases seen
    · rw [StoreDeed.sightings, done] at seen
      rw [List.mem_singleton.mp seen]
      exact written _ content (by rw [StoreDeed.edition?, done]; rfl)
  | setWritable path writable => cases seen
  | setClock time => cases seen
  | setConditions a m d => cases seen
  | commit path content =>
    rcases s.commit_cases path content with ⟨e, he⟩ | done
    · rw [StoreDeed.sightings, he] at seen
      cases seen
    · rw [StoreDeed.sightings, done] at seen
      rw [List.mem_singleton.mp seen]
      exact written _ content (by rw [StoreDeed.edition?, done]; rfl)
  | call r =>
    rw [StoreDeed.sightings] at seen
    cases r with
    | get path withContent =>
      cases got : s.read path withContent with
      | error e =>
        rw [perform, got] at seen
        cases seen
      | ok file =>
        rw [perform, got] at seen
        obtain ⟨f, found, rfl⟩ := get?_of_read got
        rw [List.mem_singleton.mp seen]
        exact before ⟨f.edition, h.files found, shows_file (by cases withContent <;> simp)⟩
    | save path request =>
      rcases s.countSave.commit_cases path request.content with ⟨e, he⟩ | done
      · rw [perform, he] at seen
        cases seen
      · rw [perform, done] at seen
        rw [List.mem_singleton.mp seen]
        exact written _ request.content (by rw [StoreDeed.edition?, perform, done]; rfl)
    | rename source target =>
      rcases s.rename_cases source target with ⟨e, he⟩ | ⟨f, found, moved⟩
      · rw [perform, he] at seen
        cases seen
      · rw [perform, moved] at seen
        rw [List.mem_singleton.mp seen]
        exact before ⟨f.edition, h.files found, shows_file nofun⟩
    | delete path =>
      cases got : (s.perform (.delete path)).2 <;> rw [got] at seen <;> cases seen
    | createCheckpoint path =>
      rw [perform, createCheckpoint] at seen
      split at seen
      · cases seen
      · next f found =>
        rw [List.mem_singleton.mp seen]
        exact before ⟨f.edition, h.files (get?_of_file found), rfl, nofun, nofun⟩
    | listCheckpoints path =>
      rw [perform, listCheckpoints] at seen
      cases found : s.file path with
      | error e =>
        rw [found] at seen
        cases seen
      | ok f =>
        rw [found] at seen
        simp only [Except.map, StoreRequest.sightings, List.mem_map] at seen
        obtain ⟨_, ⟨c, taken, rfl⟩, rfl⟩ := seen
        exact before (h.shows_checkpoint (get?_of_file found) taken)
    | restoreCheckpoint path id =>
      cases got : (s.perform (.restoreCheckpoint path id)).2 <;> rw [got] at seen <;> cases seen

/-- **Whatever is seen in a run** shows a version that was made. -/
theorem seen (h : Dated s made) {deeds : List StoreDeed} {a : Sighting} (seen : s.Seen deeds a) :
    ∃ e ∈ made ++ s.editions deeds, a.Shows e := by
  induction deeds generalizing s made with
  | nil => simpa [editions] using h.displays seen
  | cons d rest ih =>
    rw [editions, ← List.append_assoc]
    rcases seen with shown | answered | later
    · obtain ⟨e, member, is⟩ := h.displays shown
      exact ⟨e, List.mem_append_left _ (List.mem_append_left _ member), is⟩
    · obtain ⟨e, member, is⟩ := h.sightings d answered
      exact ⟨e, List.mem_append_left _ member, is⟩
    · exact ih (h.apply d) later

end Dated

/-! ## 5. A time names a version -/

/-- **A modification time identifies a version.**  In every run of a store, while sixty-four bits
suffice,

* whatever is written, and whenever, gets a time that is later than all that were given before;
* each version that is made is later than all that were made before it;
* whatever is seen, at whatever moments and under whatever paths, shows one of them, and where the
  same time is seen twice the same version is, with the same size and the same content;
* the size of a version is that of its content;
* and no two files are of the same time at once. -/
theorem lastModified_identifies_edition (deeds : List StoreDeed)
    (endures : Endures {} deeds) :
    (∀ first, first <+: deeds → ∀ path content,
      ∃ m, ((after {} first).write path content).2 = .ok m ∧
        ∀ e ∈ editions {} first, e.metadata.lastModified < m.lastModified) ∧
    (editions {} deeds).Pairwise (·.metadata.lastModified < ·.metadata.lastModified) ∧
    (∀ a, Seen {} deeds a → ∃ e ∈ editions {} deeds, a.Shows e ∧
      ∀ b, Seen {} deeds b → b.lastModified = a.lastModified → b.Shows e) ∧
    (∀ e ∈ editions {} deeds, e.metadata.size = e.content.size) ∧
    ∀ first, first <+: deeds → ∀ p q f g, (after {} first).files.get? p = some f →
      (after {} first).files.get? q = some g →
      f.metadata.lastModified = g.metadata.lastModified → p = q := by
  have dated (first : List StoreDeed) : Dated (after {} first) (editions {} first) := by
    simpa using Dated.empty.after first
  refine ⟨fun first before path content => ?_, (dated deeds).ordered, fun a ha => ?_,
    (dated deeds).sized, fun first _ p q f g hp hq same => (dated first).distinct hp hq same⟩
  · refine ⟨_, congrArg Prod.snd (write_of_lt (endures first before)), fun e made => ?_⟩
    exact Int.lt_of_le_of_lt ((dated first).given e made) (lastTime_lt_nextTime _)
  · obtain ⟨e, member, is⟩ := Dated.empty.seen ha
    refine ⟨e, by simpa using member, is, fun b hb same => ?_⟩
    obtain ⟨d, other, shown⟩ := Dated.empty.seen hb
    have time : d.metadata.lastModified = e.metadata.lastModified := by
      rw [← shown.lastModified, same, is.lastModified]
    exact (dated deeds).eq_of_lastModified (by simpa using other) (by simpa using member) time ▸
      shown

/-- A file is written, remembered in a checkpoint, moved and restored while the clock goes back, and
another is written where it was. -/
def StoreDeed.restored : List StoreDeed :=
  [.setClock 1000, .write "a.txt" (.text "one"), .setClock 500, .write "b.txt" (.text "two"),
    .call (.createCheckpoint "a.txt"), .call (.rename "a.txt" "c.txt"),
    .write "a.txt" (.text "three"), .call (.save "c.txt" ⟨"text", .text "four"⟩),
    .call (.restoreCheckpoint "c.txt" "cp0"), .call (.get "c.txt" false)]

/-- What is restored is a version of its own, though it has the content of another. -/
theorem lastModified_restored : Endures {} StoreDeed.restored ∧
    (editions {} StoreDeed.restored).map (fun e => (e.metadata.lastModified, e.metadata.size)) =
      [(1000, 3), (1001, 3), (1002, 5), (1003, 4), (1004, 3)] ∧
    (editions {} StoreDeed.restored).Pairwise
      (·.metadata.lastModified < ·.metadata.lastModified) :=
  have endures : Endures {} StoreDeed.restored := by decide +kernel
  ⟨endures, by decide +kernel, (lastModified_identifies_edition _ endures).2.1⟩

end Folio
