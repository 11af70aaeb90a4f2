/-
# The registry

Names are unique up to letter case among the entries of one kind: a table is keyed by the lower
case of the name, and a taken name is refused rather than overwritten.  Beside the three tables of
entries the registry keeps what resolving an extension needs: the candidates of each extension in
the order of registration, the default of each extension, a default for every extension, and the
defaults that the user has chosen.

Every accepted registration gives a handle by which it can be removed, and every change is
entered in a journal.

The order of registration is not kept beside a table of factories, but is the order of its entries.
A table is so a map and a list of its keys at once, and is always changed as both: a registration
puts a key only after it has looked that the key is not there (`addModel`, `addWidget`), so that
`put` enters it in the map and appends it to the list; a removal erases it, which takes it out of
both and leaves the order of the others.  No key is ever given another factory in its place.  The
defaults and the candidates are only looked up by extension; the order of their keys is never read.
-/
import Folio.Registry.Entry
import Folio.Journal.Basic
import Folio.Table

namespace Folio

/-! ## 1. Kinds, changes and errors -/

/-- **A kind of entry.** -/
inductive EntryKind where
  | modelFactory
  | widgetFactory
  | fileType
  deriving DecidableEq, Repr

/-- The name of a kind in messages. -/
def EntryKind.title : EntryKind → String
  | .modelFactory => "ModelFactory"
  | .widgetFactory => "WidgetFactory"
  | .fileType => "FileType"

/-- **A change of the registry**: an entry, by its name, was added or removed. -/
structure RegistryChange where
  added : Bool
  kind : EntryKind
  name : String
  deriving DecidableEq, Repr

/-- **Why an entry is refused.** -/
inductive RegistrationError where
  /-- The name is taken. -/
  | duplicate (kind : EntryKind) (name : String)
  /-- The name is empty or reserved. -/
  | invalidName (kind : EntryKind) (name : String)
  deriving DecidableEq, Repr

/-- The text of the error.  A refused name is empty or a spelling of `default`, so that nothing
in it needs an escape between the quotes. -/
def RegistrationError.message : RegistrationError → String
  | .duplicate kind name => "Duplicate " ++ kind.title ++ " name: " ++ name
  | .invalidName kind name => "Invalid " ++ kind.title ++ " name: \"" ++ name ++ "\""

/-- **Why a default cannot be set.** -/
inductive RegistryError where
  /-- No widget factory has the name. -/
  | unknownWidgetFactory (name : String)
  /-- The factory serves neither the extension nor the wildcard. -/
  | extensionNotHandled (factory extension : String)
  deriving DecidableEq, Repr

/-- The text of the error. -/
def RegistryError.message : RegistryError → String
  | .unknownWidgetFactory name => "Widget factory not registered: " ++ name
  | .extensionNotHandled factory extension =>
    "Widget factory " ++ factory ++ " does not handle " ++ extension

/-- **The handle of a registration**: the kind, the key under which the entry is kept, and its
name. -/
structure Handle where
  kind : EntryKind
  key : String
  name : String
  deriving DecidableEq, Repr

/-- **The outcome of a registration.** -/
inductive Registration where
  | registered (handle : Handle)
  | rejected (error : RegistrationError)
  deriving DecidableEq, Repr

/-- The handle, where there is one. -/
def Registration.handle? : Registration → Option Handle
  | .registered handle => some handle
  | .rejected _ => none

/-! ## 2. The tables -/

/-- **The tables of a registry.**  Keys of factories are lower-case names; keys of the other tables
are extensions in normal form, and their values are keys of widget factories. -/
structure RegistryTables where
  models : Table String ModelFactory := .empty
  widgets : Table String WidgetFactory := .empty
  fileTypes : List FileType := []
  /-- The default for every extension. -/
  globalDefault : Option String := none
  /-- The defaults that factories asked to be. -/
  defaults : Table String String := .empty
  /-- The defaults that the user has chosen. -/
  overrides : Table String String := .empty
  /-- The factories that declare an extension or the wildcard, in the order of registration. -/
  candidates : Table String (List String) := .empty
  deriving Repr

namespace RegistryTables

/-- The name that callers use to ask for the default widget factory. -/
def defaultName : String := "default"

/-- The file type whose name is the key up to letter case. -/
def findFileType? (t : RegistryTables) (key : String) : Option FileType :=
  t.fileTypes.find? fun f => Text.lower f.name == key

/-- Makes a factory the default for an extension that it asked for and serves. -/
def claimDefault (key : String) (f : WidgetFactory) (t : RegistryTables) (extension : String) :
    RegistryTables :=
  if !f.serves extension then t
  else if extension = Extension.wildcard then { t with globalDefault := some key }
  else { t with defaults := t.defaults.put extension key }

/-- Appends a factory to the candidates of an extension. -/
def addCandidate (key : String) (t : RegistryTables) (extension : String) : RegistryTables :=
  { t with candidates :=
      t.candidates.put extension ((t.candidates.get? extension).getD [] ++ [key]) }

/-- Enters a factory of models. -/
def putModel (t : RegistryTables) (key : String) (f : ModelFactory) : RegistryTables :=
  { t with models := t.models.put key f }

/-- Enters a factory of widgets, with the defaults it asked for and as a candidate for all that it
serves. -/
def putWidget (t : RegistryTables) (key : String) (f : WidgetFactory) : RegistryTables :=
  let t := f.defaultFor.foldl (claimDefault key f) t
  let t := f.extensions.foldl (addCandidate key) t
  { t with widgets := t.widgets.put key f }

/-- Takes out a factory of models. -/
def eraseModel (t : RegistryTables) (key : String) : RegistryTables :=
  { t with models := t.models.erase key }

/-- Takes out a factory of widgets, from every table that names it.  An extension that is left
without candidates is left out. -/
def eraseWidget (t : RegistryTables) (key : String) : RegistryTables :=
  { t with
    widgets := t.widgets.erase key
    globalDefault := if t.globalDefault = some key then none else t.globalDefault
    defaults := t.defaults.keepValues (· != key)
    overrides := t.overrides.keepValues (· != key)
    candidates :=
      (t.candidates.mapValues fun names => names.filter (· != key)).keepValues
        fun names => !names.isEmpty }

/-- Takes out a file type. -/
def eraseFileType (t : RegistryTables) (key : String) : RegistryTables :=
  { t with fileTypes := t.fileTypes.filter fun f => Text.lower f.name != key }

end RegistryTables

/-! ## 3. Registering and removing -/

/-- **A registry**: its tables, and the journal of its changes. -/
structure Registry where
  tables : RegistryTables := {}
  changes : Journal RegistryChange := .create

namespace Registry

/-- The registry without entries. -/
def empty : Registry := {}

/-- Accepts an entry: the tables are replaced, the change is announced. -/
def accept (r : Registry) (tables : RegistryTables) (kind : EntryKind) (key name : String) :
    Registry × Registration :=
  ({ tables, changes := r.changes.emit ⟨true, kind, name⟩ }, .registered ⟨kind, key, name⟩)

/-- **Registers a factory of models.** -/
def addModel (r : Registry) (f : ModelFactory) : Registry × Registration :=
  let key := Text.lower f.name
  if key = "" then (r, .rejected (.invalidName .modelFactory f.name))
  else if r.tables.models.contains key then (r, .rejected (.duplicate .modelFactory f.name))
  else r.accept (r.tables.putModel key f) .modelFactory key f.name

/-- **Registers a factory of widgets.**  The name that asks for the default is reserved. -/
def addWidget (r : Registry) (f : WidgetFactory) : Registry × Registration :=
  let key := Text.lower f.name
  if key = "" ∨ key = RegistryTables.defaultName then
    (r, .rejected (.invalidName .widgetFactory f.name))
  else if r.tables.widgets.contains key then (r, .rejected (.duplicate .widgetFactory f.name))
  else r.accept (r.tables.putWidget key f) .widgetFactory key f.name

/-- **Registers a file type.** -/
def addFileType (r : Registry) (t : FileType) : Registry × Registration :=
  let key := Text.lower t.name
  if key = "" then (r, .rejected (.invalidName .fileType t.name))
  else if (r.tables.findFileType? key).isSome then (r, .rejected (.duplicate .fileType t.name))
  else
    r.accept { r.tables with fileTypes := r.tables.fileTypes ++ [t] } .fileType key t.name

/-- The entry of a handle's kind and key is there. -/
def isRegistered (r : Registry) (h : Handle) : Bool :=
  match h.kind with
  | .modelFactory => r.tables.models.contains h.key
  | .widgetFactory => r.tables.widgets.contains h.key
  | .fileType => (r.tables.findFileType? h.key).isSome

/-- The tables without the entry of a handle's kind and key. -/
def tablesWithout (r : Registry) (h : Handle) : RegistryTables :=
  match h.kind with
  | .modelFactory => r.tables.eraseModel h.key
  | .widgetFactory => r.tables.eraseWidget h.key
  | .fileType => r.tables.eraseFileType h.key

/-- **Removes an entry by its handle.**  Nothing happens if no such entry is there. -/
def unregister (r : Registry) (h : Handle) : Registry :=
  if r.isRegistered h then
    { tables := r.tablesWithout h, changes := r.changes.emit ⟨false, h.kind, h.name⟩ }
  else r

/-- **Chooses the default of an extension**, or, with no name, takes the choice back. -/
def setDefault (r : Registry) (extension : String) (factory : Option String) :
    Except RegistryError Registry :=
  let extension := Extension.normalize extension
  match factory with
  | none => .ok { r with tables.overrides := r.tables.overrides.erase extension }
  | some name =>
    let key := Text.lower name
    match r.tables.widgets.get? key with
    | none => .error (.unknownWidgetFactory name)
    | some f =>
      if f.serves extension || f.serves Extension.wildcard then
        .ok { r with tables.overrides := r.tables.overrides.put extension key }
      else .error (.extensionNotHandled name extension)

end Registry

end Folio
