/-
# Resolving extensions and paths

Which factories serve an extension, the best first.  Seven classes of factories come one after the
other: the one that the user has chosen for the extension, the default of the extension, the
default of its last segment, the default of all extensions, and then the candidates of the
extension, of its last segment and of the wildcard in the order of registration.  A factory that
belongs to several classes stands where it comes first, and one whose model factory is not
registered is passed over.
-/
import Folio.Registry.Basic

namespace Folio

namespace RegistryTables

/-- **The seven classes** of widget factories for an extension in normal form, by their keys. -/
def classes (t : RegistryTables) (extension : String) : List (List String) :=
  let last := Extension.finalSegment extension
  let compound := last ≠ extension
  [(t.overrides.get? extension).toList,
    (t.defaults.get? extension).toList,
    if compound then (t.defaults.get? last).toList else [],
    t.globalDefault.toList,
    (t.candidates.get? extension).getD [],
    if compound then (t.candidates.get? last).getD [] else [],
    (t.candidates.get? Extension.wildcard).getD []]

/-- The model factory of a widget factory is registered. -/
def hasModel (t : RegistryTables) (f : WidgetFactory) : Bool :=
  t.models.contains (Text.lower f.modelName)

/-- **The widget factories for an extension** in normal form, the best first. -/
def ranked (t : RegistryTables) (extension : String) : List WidgetFactory :=
  ((t.classes extension).flatten.eraseDups.filterMap t.widgets.get?).filter t.hasModel

end RegistryTables

namespace Registry

/-- A factory of models by its name. -/
def model? (r : Registry) (name : String) : Option ModelFactory :=
  r.tables.models.get? (Text.lower name)

/-- A factory of widgets by its name. -/
def widget? (r : Registry) (name : String) : Option WidgetFactory :=
  r.tables.widgets.get? (Text.lower name)

/-- A file type by its name. -/
def fileType? (r : Registry) (name : String) : Option FileType :=
  r.tables.findFileType? (Text.lower name)

/-- The factories of models in the order of registration. -/
def models (r : Registry) : List ModelFactory := r.tables.models.values

/-- The factories of widgets in the order of registration. -/
def widgets (r : Registry) : List WidgetFactory := r.tables.widgets.values

/-- **The widget factories for an extension**, in any spelling, the best first. -/
def preferred (r : Registry) (extension : String) : List WidgetFactory :=
  r.tables.ranked (Extension.normalize extension)

/-- **The widget factories for a path**, the best first. -/
def preferredForPath (r : Registry) (path : String) : List WidgetFactory :=
  r.tables.ranked (Extension.ofPath path)

/-- The best widget factory for an extension. -/
def default? (r : Registry) (extension : String) : Option WidgetFactory :=
  (r.preferred extension).head?

/-- **The widget factory that a name means** for a path: the best one if the name asks for the
default, else the one of that name. -/
def widgetFor? (r : Registry) (path name : String) : Option WidgetFactory :=
  if Text.sameAscii name RegistryTables.defaultName then (r.preferredForPath path).head?
  else r.widget? name

/-- **The file types of a path**, those with the longest matching extension first. -/
def fileTypesForPath (r : Registry) (path : String) : List FileType :=
  let name := Text.lowerChars (Extension.baseName path.toList)
  let fits := r.tables.fileTypes.filterMap fun t => (t.matchSize? name).map (·, t)
  (fits.mergeSort fun a b => b.1 ≤ a.1).map (·.2)

end Registry

end Folio
