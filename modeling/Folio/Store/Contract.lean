/-
# The contract of a content store

A store keeps files under paths.  What it reports about a file, what it is asked, and how it may
fail.  A `StoreRequest` is one call; `StoreRequest.Answer` is the type of what the call gives when
it succeeds, so that an answer can only be what its request asked for.
-/
import Folio.Document.Content

namespace Folio

/-- **What a store knows of a file**: when it was last modified, in milliseconds, and its size in
bytes. -/
structure Metadata where
  lastModified : Int
  size : Nat
  deriving DecidableEq, Repr, Inhabited

/-- **A file as a store reports it**, with its content if that was asked for. -/
structure RemoteFile where
  path : String
  metadata : Metadata
  writable : Bool
  content : Option Content
  deriving Inhabited

/-- **What is handed over to be saved.** -/
structure SaveRequest where
  contentType : String
  content : Content
  deriving Inhabited

/-- **A checkpoint of a file**: its name, and when the file had last been modified then. -/
structure Checkpoint where
  id : String
  lastModified : Int
  deriving DecidableEq, Repr, Inhabited

/-- **How a store fails.** -/
inductive StoreError where
  | notFound (what : String)
  | unavailable (why : String)
  | internal (why : String)
  /-- There is no modification time after the last one.  The call gives no answer, it breaks off,
  and whoever waits for it breaks off with it. -/
  | overflow
  deriving DecidableEq, Repr

/-- The text of the error. -/
def StoreError.message : StoreError → String
  | .notFound what => "File not found: " ++ what
  | .unavailable why => "Store unavailable: " ++ why
  | .internal why => "Store error: " ++ why
  | .overflow => "attempt to add with overflow"

/-! ## 1. Calls -/

/-- **A call of a store.** -/
inductive StoreRequest where
  | get (path : String) (withContent : Bool)
  | save (path : String) (request : SaveRequest)
  | rename (source target : String)
  | delete (path : String)
  | createCheckpoint (path : String)
  | listCheckpoints (path : String)
  | restoreCheckpoint (path id : String)

/-- **What a call gives when it succeeds.** -/
@[reducible] def StoreRequest.Answer : StoreRequest → Type
  | .get _ _ => RemoteFile
  | .save _ _ => Metadata
  | .rename _ _ => Metadata
  | .delete _ => Unit
  | .createCheckpoint _ => Checkpoint
  | .listCheckpoints _ => List Checkpoint
  | .restoreCheckpoint _ _ => Unit

/-- The outcome of a call. -/
abbrev StoreRequest.Reply (r : StoreRequest) : Type := Except StoreError r.Answer

/-! ## 2. Written forms -/

namespace Metadata

/-- The written form. -/
def toJson (m : Metadata) : Json :=
  .object [("last_modified", .ofInt m.lastModified), ("size", .ofNat m.size)]

/-- Reads the written form. -/
def read : Json.Reads Metadata := fun room t => do
  let (room, [lastModified, size]) ← Json.fields? ["last_modified", "size"] room t | none
  let lastModified ← Json.required Json.readInt room lastModified
  let size ← Json.required Json.readNat room size
  pure ⟨lastModified, size⟩

end Metadata

namespace RemoteFile

/-- The written form; a missing content is left out. -/
def toJson (f : RemoteFile) : Json :=
  .object ([("path", .string f.path), ("metadata", f.metadata.toJson),
    ("writable", .bool f.writable)] ++ (f.content.map fun c => ("content", c.toJson)).toList)

/-- Reads the written form; the content may be missing. -/
def read : Json.Reads RemoteFile := fun room t => do
  let (room, [path, metadata, writable, content]) ←
    Json.fields? ["path", "metadata", "writable", "content"] room t | none
  let path ← Json.required Json.readString room path
  let metadata ← Json.required Metadata.read room metadata
  let writable ← Json.required Json.readBool room writable
  let content ← Json.optional Content.read room content
  pure ⟨path, metadata, writable, content⟩

end RemoteFile

namespace SaveRequest

/-- The written form. -/
def toJson (r : SaveRequest) : Json :=
  .object [("content_type", .string r.contentType), ("content", r.content.toJson)]

/-- Reads the written form. -/
def read : Json.Reads SaveRequest := fun room t => do
  let (room, [contentType, content]) ← Json.fields? ["content_type", "content"] room t | none
  let contentType ← Json.required Json.readString room contentType
  let content ← Json.required Content.read room content
  pure ⟨contentType, content⟩

end SaveRequest

namespace Checkpoint

/-- The written form. -/
def toJson (c : Checkpoint) : Json :=
  .object [("id", .string c.id), ("last_modified", .ofInt c.lastModified)]

/-- Reads the written form. -/
def read : Json.Reads Checkpoint := fun room t => do
  let (room, [id, lastModified]) ← Json.fields? ["id", "last_modified"] room t | none
  let id ← Json.required Json.readString room id
  let lastModified ← Json.required Json.readInt room lastModified
  pure ⟨id, lastModified⟩

end Checkpoint

end Folio
