/-
# Widgets

A widget shows one context for all its life.  The manager makes widgets and disposes them; what
they look like is the host's concern, to which every widget is announced when it is made and again
when it is disposed.
-/
import Folio.Document.Context
import Folio.Registry.Entry

namespace Folio

/-- **The identity of a widget.**  Those of widgets that were made are numbered in that order; any
other identity is foreign. -/
inductive WidgetId where
  | issued (number : Nat)
  | foreign
  deriving DecidableEq, Repr

/-- The identity in messages. -/
def WidgetId.text : WidgetId → String
  | .issued n => "w" ++ toString n
  | .foreign => "unknown"

/-- **A widget.**  `custom` says that a constructor of the factory's own made it. -/
structure Widget where
  factoryName : String
  context : ContextId
  hint : Option OpenHint
  custom : Bool
  disposed : Bool := false
  deriving Repr

/-- **What the host is told about widgets.** -/
inductive LifecycleEvent where
  /-- A widget was made for a context. -/
  | adopted (widget : WidgetId) (context : ContextId) (hint : Option OpenHint)
  /-- A widget was disposed. -/
  | disposed (widget : WidgetId)
  deriving DecidableEq, Repr

end Folio
