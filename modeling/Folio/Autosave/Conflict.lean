/-
# Conflicts

A document has changed on disk while it has unsaved changes here.  The user is shown a prompt and
answers what to do about it.
-/
import Folio.Json.Record
import Folio.Json.Writer

namespace Folio

/-- **What the user decides about a conflict.** -/
inductive Resolution where
  /-- Do nothing this time. -/
  | cancel
  /-- Discard the changes here and read the document again. -/
  | revert
  /-- Save the changes here over the document on disk. -/
  | overwrite
  deriving DecidableEq, Repr

namespace Resolution

/-- The resolutions by their names in written form. -/
def names : List (String × Resolution) :=
  [("cancel", .cancel), ("revert", .revert), ("overwrite", .overwrite)]

/-- The name of a resolution in written form. -/
def name : Resolution → String
  | .cancel => "cancel"
  | .revert => "revert"
  | .overwrite => "overwrite"

/-- The written form. -/
def toJson (r : Resolution) : Json := .string r.name

/-- Reads the written form. -/
def read : Json.Reads Resolution := Json.readName names

end Resolution

/-- **What the user is told about a conflict**: the document, the modification time that was last
seen here, and the one that the store reports now. -/
structure ConflictPrompt where
  path : String
  known : Option Int
  remote : Int
  deriving DecidableEq, Repr

namespace ConflictPrompt

/-- The text of the prompt. -/
def body (p : ConflictPrompt) : String :=
  match p.known with
  | some known =>
    "\"" ++ p.path ++ "\" has changed on disk since it was last read or written (known " ++
      toString known ++ ", now " ++ toString p.remote ++
      "). Revert to the disk version or overwrite it?"
  | none =>
    "\"" ++ p.path ++ "\" has changed on disk. Revert to the disk version or overwrite it?"

/-- The written form. -/
def toJson (p : ConflictPrompt) : Json :=
  .object [("path", .string p.path), ("known_last_modified", .ofOption .ofInt p.known),
    ("remote_last_modified", .ofInt p.remote)]

/-- Reads the written form; the known time may be missing. -/
def read : Json.Reads ConflictPrompt := fun room t => do
  let (room, [path, known, remote]) ←
    Json.fields? ["path", "known_last_modified", "remote_last_modified"] room t | none
  let path ← Json.required Json.readString room path
  let known ← Json.optional Json.readInt room known
  let remote ← Json.required Json.readInt room remote
  pure ⟨path, known, remote⟩

end ConflictPrompt

end Folio
