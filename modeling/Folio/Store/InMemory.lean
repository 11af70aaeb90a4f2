/-
# A store in memory

Files in a table, with their checkpoints.  Every write gets a modification time that is later than
all before it: the time on the wall clock, or one more than the last one given if the clock has not
moved on.  Times are signed words of sixty-four bits, so there is none after the greatest one; a
write that finds it given breaks off, and leaves the store as it is.

A store can be told to be offline, to fail only reads of metadata, and to take its time over
saves.  Reads and saves are counted, whether they succeed or not.
-/
import Folio.Store.Contract
import Folio.Table

namespace Folio

/-- **A file in the store.** -/
structure StoredFile where
  content : Content
  metadata : Metadata
  writable : Bool
  checkpoints : List (Checkpoint × Content)
  deriving Inhabited

/-- **How often the store was called.** -/
structure CallCounts where
  metadataReads : Nat := 0
  contentReads : Nat := 0
  saves : Nat := 0
  deriving DecidableEq, Repr

/-- All reads and saves. -/
def CallCounts.total (c : CallCounts) : Nat := c.metadataReads + c.contentReads + c.saves

/-- **The store.**  `wallClock` is what the clock shows, in milliseconds; `lastTime` is the last
modification time given. -/
structure MemoryStore where
  files : Table String StoredFile := .empty
  wallClock : Int := 0
  lastTime : Int := 0
  available : Bool := true
  metadataAvailable : Bool := true
  saveDelay : Option Nat := none
  calls : CallCounts := {}
  /-- The number of checkpoints ever taken; it names the next one. -/
  checkpointCount : Nat := 0

namespace MemoryStore

/-! ## 1. Files -/

/-- The greatest modification time. -/
def greatestTime : Int := 9223372036854775807

/-- The next modification time, later than the last one.  A clock before the epoch counts as
standing at it, and a clock beyond the greatest time as showing that. -/
def nextTime (s : MemoryStore) : Int := max (min (max s.wallClock 0) greatestTime) (s.lastTime + 1)

/-- The store with a new version of a file: its checkpoints and whether it is writable stay as they
are, and a new file is writable. -/
def revise (s : MemoryStore) (path : String) (content : Content) : MemoryStore :=
  let metadata := ⟨s.nextTime, content.size⟩
  let file : StoredFile :=
    match s.files.get? path with
    | some old => { old with content, metadata }
    | none => ⟨content, metadata, true, []⟩
  { s with files := s.files.put path file, lastTime := s.nextTime }

/-- **Writes a file** as another client would, if there is a time for it. -/
def write (s : MemoryStore) (path : String) (content : Content) :
    MemoryStore × Except StoreError Metadata :=
  if s.lastTime < greatestTime then (s.revise path content, .ok ⟨s.nextTime, content.size⟩)
  else (s, .error .overflow)

/-- Marks a file writable or not; nothing happens if it does not exist. -/
def setWritable (s : MemoryStore) (path : String) (writable : Bool) : MemoryStore :=
  match s.files.get? path with
  | some file => { s with files := s.files.put path { file with writable } }
  | none => s

/-- The content of a file. -/
def content? (s : MemoryStore) (path : String) : Option Content :=
  (s.files.get? path).map (·.content)

/-- The file exists. -/
def contains (s : MemoryStore) (path : String) : Bool := s.files.contains path

/-! ## 2. The contract -/

/-- Fails every call while the store is offline. -/
def requireAvailable (s : MemoryStore) : Except StoreError Unit :=
  if s.available then .ok () else .error (.unavailable "memory store offline")

/-- The file at a path, if the store is not offline. -/
def file (s : MemoryStore) (path : String) : Except StoreError StoredFile := do
  s.requireAvailable
  match s.files.get? path with
  | some file => .ok file
  | none => .error (.notFound path)

/-- Counts a read. -/
def countRead (s : MemoryStore) (withContent : Bool) : MemoryStore :=
  if withContent then { s with calls.contentReads := s.calls.contentReads + 1 }
  else { s with calls.metadataReads := s.calls.metadataReads + 1 }

/-- Counts a save. -/
def countSave (s : MemoryStore) : MemoryStore :=
  { s with calls.saves := s.calls.saves + 1 }

/-- The file as it is reported, with its content if that is asked for. -/
def read (s : MemoryStore) (path : String) (withContent : Bool) : Except StoreError RemoteFile := do
  s.requireAvailable
  if !withContent && !s.metadataAvailable then
    throw (.unavailable "memory store metadata offline")
  let file ← s.file path
  pure ⟨path, file.metadata, file.writable, if withContent then some file.content else none⟩

/-- **What a save does** once its delay is over: a file that is not writable is left alone. -/
def commit (s : MemoryStore) (path : String) (content : Content) :
    MemoryStore × Except StoreError Metadata :=
  match s.requireAvailable with
  | .error e => (s, .error e)
  | .ok () =>
    match s.files.get? path with
    | some ⟨_, _, false, _⟩ => (s, .error (.internal (path ++ " is read-only")))
    | _ => s.write path content

/-- Moves a file, with all that belongs to it, to a path where there is none. -/
def rename (s : MemoryStore) (source target : String) : MemoryStore × Except StoreError Metadata :=
  match s.requireAvailable with
  | .error e => (s, .error e)
  | .ok () =>
    if s.contains target then (s, .error (.internal (target ++ " already exists")))
    else
      match s.files.get? source with
      | none => (s, .error (.notFound source))
      | some file =>
        ({ s with files := (s.files.erase source).put target file }, .ok file.metadata)

/-- Deletes a file. -/
def delete (s : MemoryStore) (path : String) : MemoryStore × Except StoreError Unit :=
  match s.file path with
  | .error e => (s, .error e)
  | .ok _ => ({ s with files := s.files.erase path }, .ok ())

/-- The name of a checkpoint by its number. -/
def checkpointName (n : Nat) : String := "cp" ++ toString n

/-- **Takes a checkpoint** of a file. -/
def createCheckpoint (s : MemoryStore) (path : String) :
    MemoryStore × Except StoreError Checkpoint :=
  match s.file path with
  | .error e => (s, .error e)
  | .ok file =>
    let checkpoint := ⟨checkpointName s.checkpointCount, file.metadata.lastModified⟩
    let file := { file with checkpoints := file.checkpoints ++ [(checkpoint, file.content)] }
    ({ s with files := s.files.put path file, checkpointCount := s.checkpointCount + 1 },
      .ok checkpoint)

/-- The checkpoints of a file, oldest first. -/
def listCheckpoints (s : MemoryStore) (path : String) : Except StoreError (List Checkpoint) :=
  (s.file path).map fun file => file.checkpoints.map (·.1)

/-- **Restores a checkpoint**: its content is written again, as a new version of the file. -/
def restoreCheckpoint (s : MemoryStore) (path id : String) :
    MemoryStore × Except StoreError Unit :=
  match s.file path with
  | .error e => (s, .error e)
  | .ok file =>
    match file.checkpoints.find? (·.1.id == id) with
    | none => (s, .error (.notFound (path ++ "@" ++ id)))
    | some (_, content) =>
      let (s, result) := s.write path content
      (s, result.map fun _ => ())

/-- **A call of the store**, all at once.  A save is counted and done without delay. -/
def perform (s : MemoryStore) : (r : StoreRequest) → MemoryStore × r.Reply
  | .get path withContent => (s.countRead withContent, s.read path withContent)
  | .save path request => s.countSave.commit path request.content
  | .rename source target => s.rename source target
  | .delete path => s.delete path
  | .createCheckpoint path => s.createCheckpoint path
  | .listCheckpoints path => (s, s.listCheckpoints path)
  | .restoreCheckpoint path id => s.restoreCheckpoint path id

end MemoryStore

end Folio
