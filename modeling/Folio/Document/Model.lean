/-
# Document models

A model is the document in memory: a text, or a row of bytes, with two flags.  `dirty` says that
it has changes that were not persisted, `readOnly` that it refuses to be persisted.  An edit makes
the model dirty; loading a content changes neither flag.

A text model loads texts as they are and JSON values in their pretty form; a model of bytes loads
base64, in which blanks are ignored.
-/
import Folio.Base64
import Folio.Document.Content
import Folio.Text.Blank

namespace Folio

/-- **The two kinds of models.** -/
inductive ModelKind where
  | text
  | bytes
  deriving DecidableEq, Repr

/-- **What a model holds.** -/
inductive ModelValue where
  | text (text : String)
  | bytes (bytes : List UInt8)
  deriving DecidableEq, Repr

/-- **A document in memory.** -/
structure Model where
  value : ModelValue
  dirty : Bool
  readOnly : Bool
  deriving DecidableEq, Repr

/-- **Why a content cannot be loaded.** -/
inductive ModelError where
  | formatMismatch (expected actual : Format)
  | decode (cause : Base64.DecodeError)
  deriving DecidableEq, Repr

/-- The text of the error. -/
def ModelError.message : ModelError → String
  | .formatMismatch expected actual =>
    "Model expects " ++ expected.title ++ " content, got " ++ actual.title
  | .decode cause => "Invalid base64 content: " ++ cause.message

namespace ModelValue

/-- The value of a fresh model. -/
def blank : ModelKind → ModelValue
  | .text => .text ""
  | .bytes => .bytes []

/-- The kind of model that holds such a value. -/
def kind : ModelValue → ModelKind
  | .text _ => .text
  | .bytes _ => .bytes

/-- **The content that a value is persisted as.** -/
def content : ModelValue → Content
  | .text s => .text s
  | .bytes bs => .base64 (String.ofList (Base64.encodeChars bs))

end ModelValue

/-- **The value that a kind of model makes of a content.** -/
def ModelKind.load : ModelKind → Content → Except ModelError ModelValue
  | .text, .text s => .ok (.text s)
  | .text, .json v => .ok (.text v.pretty)
  | .text, .base64 _ => .error (.formatMismatch .text .base64)
  | .bytes, .base64 s =>
    match Base64.decodeChars (Text.withoutBlanks s.toList) with
    | .ok data => .ok (.bytes data)
    | .error cause => .error (.decode cause)
  | .bytes, content => .error (.formatMismatch .base64 content.format)

namespace Model

/-- A fresh model: empty, with both flags down. -/
def create (kind : ModelKind) : Model := ⟨.blank kind, false, false⟩

/-- The kind of a model. -/
def kind (m : Model) : ModelKind := m.value.kind

/-- The content that a model is persisted as. -/
def content (m : Model) : Content := m.value.content

/-- Replaces the value as an edit does. -/
def edit (m : Model) (value : ModelValue) : Model := { m with value, dirty := true }

/-- Sets the flag for changes that were not persisted. -/
def setDirty (m : Model) (dirty : Bool) : Model := { m with dirty }

/-- Sets the flag for refusing to be persisted. -/
def setReadOnly (m : Model) (readOnly : Bool) : Model := { m with readOnly }

/-- **Replaces the value by a content**; both flags stay. -/
def load (m : Model) (content : Content) : Except ModelError Model :=
  (m.kind.load content).map fun value => { m with value }

end Model

end Folio
