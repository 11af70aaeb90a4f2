/-
# What is registered

A registry knows three kinds of entries: factories of models, factories of widgets, and file
types.  Factories are records: the kind of model that is built, the extensions that are served.
Extensions are brought to their normal form when a record is made.
-/
import Folio.Text.Extension
import Folio.Document.Model

namespace Folio

/-! ## 1. Hints -/

/-- **Where a widget is wanted**: a mode of insertion and the widget or area it refers to.  The
hint is handed on and never looked at. -/
structure OpenHint where
  mode : Option String := none
  reference : Option String := none
  deriving DecidableEq, Repr

namespace OpenHint

/-- The written form; what is missing is left out. -/
def toJson (h : OpenHint) : Json :=
  .object ((h.mode.map fun s => ("mode", Json.string s)).toList ++
    (h.reference.map fun s => ("reference", Json.string s)).toList)

/-- Reads the written form; both keys may be missing. -/
def read : Json.Reads OpenHint := fun room t => do
  let (room, [mode, reference]) ← Json.fields? ["mode", "reference"] room t | none
  let mode ← Json.optional Json.readString room mode
  let reference ← Json.optional Json.readString room reference
  pure ⟨mode, reference⟩

end OpenHint

/-! ## 2. Factories of models -/

/-- **A way to build models**: its name, the content type sent with saves, the format in the
store, and the kind of model that is built. -/
structure ModelFactory where
  name : String
  contentType : String
  format : Format
  kind : ModelKind
  deriving DecidableEq, Repr

namespace ModelFactory

/-- Texts. -/
def text : ModelFactory := ⟨"text", "file", .text, .text⟩

/-- Bytes that are persisted as base64. -/
def base64 : ModelFactory := ⟨"base64", "file", .base64, .bytes⟩

/-- A fresh model. -/
def build (f : ModelFactory) : Model := .create f.kind

end ModelFactory

/-! ## 3. Factories of widgets -/

/-- **A way to build widgets.**  `extensions` are those it serves and `defaultFor` those it asks to
be the default for, both in normal form; `modelName` names the factory of the models that its
widgets show.  With `viewName` its widgets give that name as their factory's. -/
structure WidgetFactory where
  name : String
  extensions : List String
  defaultFor : List String
  modelName : String
  viewName : Option String := none
  deriving DecidableEq, Repr

namespace WidgetFactory

/-- Appends extensions in normal form; one that is already there is passed over. -/
def addNormalized (known declared : List String) : List String :=
  declared.foldl
    (fun known e =>
      let e := Extension.normalize e
      if e ∈ known then known else known ++ [e])
    known

/-- A factory that serves nothing yet. -/
def create (name modelName : String) : WidgetFactory := ⟨name, [], [], modelName, none⟩

/-- Adds extensions that are served. -/
def serving (f : WidgetFactory) (declared : List String) : WidgetFactory :=
  { f with extensions := addNormalized f.extensions declared }

/-- Adds extensions that the factory asks to be the default for. -/
def asDefaultFor (f : WidgetFactory) (declared : List String) : WidgetFactory :=
  { f with defaultFor := addNormalized f.defaultFor declared }

/-- The factory declares an extension, given in normal form. -/
def serves (f : WidgetFactory) (extension : String) : Bool := f.extensions.contains extension

/-- The name that the widgets of the factory give as their factory's. -/
def widgetName (f : WidgetFactory) : String := f.viewName.getD f.name

end WidgetFactory

/-! ## 4. File types -/

/-- **A named family of files**, told by their extensions. -/
structure FileType where
  name : String
  extensions : List String
  mimeTypes : List String
  contentType : String
  format : Format
  deriving DecidableEq, Repr

namespace FileType

/-- A file type, with its extensions brought to normal form. -/
def create (name : String) (declared : List String) (contentType : String) (format : Format)
    (mimeTypes : List String) : FileType :=
  ⟨name, declared.map Extension.normalize, mimeTypes, contentType, format⟩

/-- A file name, in lower case, ends in the extension and is longer than it. -/
def matchesExtension (fileName : List Char) (extension : String) : Bool :=
  extension.toList.isSuffixOf fileName && extension.toList.length < fileName.length

/-- **How well a file name fits**: the size in bytes of the longest extension that it ends in. -/
def matchSize? (t : FileType) (fileName : List Char) : Option Nat :=
  ((t.extensions.filter (matchesExtension fileName)).map String.utf8ByteSize).max?

/-- The written form. -/
def toJson (t : FileType) : Json :=
  .object [("name", .string t.name), ("extensions", .ofStrings t.extensions),
    ("mime_types", .ofStrings t.mimeTypes), ("content_type", .string t.contentType),
    ("file_format", t.format.toJson)]

/-- Reads the written form; the MIME types may be missing. -/
def read : Json.Reads FileType := fun room t => do
  let (room, [name, extensions, mimeTypes, contentType, format]) ←
    Json.fields? ["name", "extensions", "mime_types", "content_type", "file_format"] room t
    | none
  let name ← Json.required Json.readString room name
  let extensions ← Json.required (Json.readList Json.readString) room extensions
  let mimeTypes ← Json.withDefault [] (Json.readList Json.readString) room mimeTypes
  let contentType ← Json.required Json.readString room contentType
  let format ← Json.required Format.read room format
  pure ⟨name, extensions, mimeTypes, contentType, format⟩

end FileType

end Folio
