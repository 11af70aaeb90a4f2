/-
# The host at the registry

How commands to a registry are carried out.  The host keeps the handles of its registrations under
labels; each can be used once, and that of a refused registration does nothing.
-/
import Folio.Host.Command

namespace Folio.Host

/-- **A handle in the hands of the host.** -/
inductive HeldHandle where
  /-- It removes a registration. -/
  | live (handle : Handle)
  /-- It does nothing. -/
  | inert
  /-- It was used. -/
  | used
  deriving DecidableEq, Repr

/-- **A registry and the handles of a host.** -/
structure Catalog where
  registry : Registry
  held : List HeldHandle

namespace Catalog

/-- Keeps the handle of a registration. -/
def keep (c : Catalog) (outcome : Registry × Registration) : Catalog × Reply :=
  let held := match outcome.2.handle? with
    | some handle => HeldHandle.live handle
    | none => .inert
  (⟨outcome.1, c.held ++ [held]⟩, .registration c.held.length outcome.2)

/-- Uses the handle of a label. -/
def unregister (c : Catalog) (label : Label) : Catalog × Reply :=
  let used := fun i => c.held.set i .used
  match label with
  | none => (c, .failed (.refused .badHandle))
  | some i =>
    match c.held[i]? with
    | some (.live handle) => (⟨c.registry.unregister handle, used i⟩, .nothing)
    | some .inert => ({ c with held := used i }, .nothing)
    | some .used => (c, .failed (.refused .badHandle))
    | none => (c, .failed (.refused .badHandle))

/-- The names of widget factories. -/
def widgetNames (fs : List WidgetFactory) : Reply := .names (fs.map (·.name))

/-- **Carries out a command.** -/
def run (c : Catalog) : RegistryCommand → Catalog × Reply
  | .addModel f => c.keep (c.registry.addModel f)
  | .addWidget f => c.keep (c.registry.addWidget f)
  | .addFileType t => c.keep (c.registry.addFileType t)
  | .unregister label => c.unregister label
  | .drop => (c, .nothing)
  | .model name => (c, .modelFactory (c.registry.model? name))
  | .widget name => (c, .widgetFactory (c.registry.widget? name))
  | .fileType name => (c, .fileType (c.registry.fileType? name))
  | .models => (c, .names (c.registry.models.map (·.name)))
  | .widgets => (c, widgetNames c.registry.widgets)
  | .preferred extension => (c, widgetNames (c.registry.preferred extension))
  | .preferredForPath path => (c, widgetNames (c.registry.preferredForPath path))
  | .default extension => (c, .name ((c.registry.default? extension).map (·.name)))
  | .widgetFor path name => (c, .name ((c.registry.widgetFor? path name).map (·.name)))
  | .serves name extension =>
    (c, .maybe ((c.registry.widget? name).map fun f => f.serves extension))
  | .setDefault extension factory =>
    match c.registry.setDefault extension factory with
    | .ok registry => ({ c with registry }, .ok)
    | .error e => (c, .failed (.registry e))
  | .fileTypes path => (c, .names ((c.registry.fileTypesForPath path).map (·.name)))

/-- **Carries out a command after the registry is gone**, which handles do not keep alive: they can
still be used up, but nothing is left to be removed.  To give the registry up again does nothing. -/
def runWithout (c : Catalog) : RegistryCommand → Catalog × Reply
  | .unregister label =>
    let (after, reply) := c.unregister label
    ({ c with held := after.held }, reply)
  | .drop => (c, .nothing)
  | _ => (c, .failed (.refused .notPossible))

end Catalog

end Folio.Host
