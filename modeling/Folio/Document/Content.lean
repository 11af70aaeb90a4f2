/-
# What a document contains

The content that is exchanged with a store is a text, a JSON value or bytes in base64, tagged with
its format.  Its size is the number of bytes of the text, where a JSON value counts in its compact
form.
-/
import Folio.Json.Record
import Folio.Json.Writer

namespace Folio

/-- **The format of a content.** -/
inductive Format where
  | text
  | json
  | base64
  deriving DecidableEq, Repr

namespace Format

/-- The formats by the names they have in written form. -/
def names : List (String × Format) := [("text", .text), ("json", .json), ("base64", .base64)]

/-- The name of a format in written form. -/
def name : Format → String
  | .text => "text"
  | .json => "json"
  | .base64 => "base64"

/-- The name of a format in messages. -/
def title : Format → String
  | .text => "Text"
  | .json => "Json"
  | .base64 => "Base64"

/-- The written form. -/
def toJson (f : Format) : Json := .string f.name

/-- Reads the written form. -/
def read : Json.Reads Format := Json.readName names

/-- Reads the format that tags a content.  A content that is written as an array begins with the
bare name. -/
def readTag (content : Json.Term) : Json.Reads Format :=
  match content with
  | .array _ => Json.readPlainName names
  | _ => read

end Format

/-- **The content of a document.** -/
inductive Content where
  | text (text : String)
  | json (value : Json)
  | base64 (encoded : String)
  deriving Inhabited

namespace Content

/-- The format of a content. -/
def format : Content → Format
  | .text _ => .text
  | .json _ => .json
  | .base64 _ => .base64

/-- **The size of a content** in bytes. -/
def size : Content → Nat
  | .text s => s.utf8ByteSize
  | .json v => v.compact.utf8ByteSize
  | .base64 s => s.utf8ByteSize

/-- What stands under the key `content` in the written form. -/
def body : Content → Json
  | .text s => .string s
  | .json v => v
  | .base64 s => .string s

/-- The written form: the format and the content under two keys. -/
def toJson (c : Content) : Json := .object [("format", c.format.toJson), ("content", c.body)]

/-- Reads what stands under the key `content`, given the format. -/
def readBody : Format → Json.Reads Content
  | .text => fun room t => (Json.readString room t).map .text
  | .json => fun room t => (t.value? room).map .json
  | .base64 => fun room t => (Json.readString room t).map .base64

/-- Reads the written form; both keys must be there. -/
def read : Json.Reads Content := fun room t => do
  let (room, [format, body]) ← Json.fields? ["format", "content"] room t | none
  let format ← Json.required (Format.readTag t) room format
  Json.required (readBody format) room body

end Content

end Folio
