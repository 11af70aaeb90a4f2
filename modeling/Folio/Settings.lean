/-
# Configuration

What a session is started with: whether contexts are saved by themselves, and how often.  The
configuration is read from a JSON text in which everything may be left out; an interval of zero
can be written down but is refused.
-/
import Folio.Duration
import Folio.Json.Record
import Folio.Json.Writer

namespace Folio

/-- **The settings of autosave**: whether it is on, and its interval in seconds. -/
structure AutosaveSettings where
  enabled : Bool := true
  intervalSeconds : Nat := 120
  deriving DecidableEq, Repr

/-- **The configuration of a session.** -/
structure Settings where
  autosave : AutosaveSettings := {}
  deriving DecidableEq, Repr

/-- **Why a configuration is refused.** -/
inductive SettingsError where
  /-- The text is no configuration. -/
  | unreadable
  /-- The interval is zero. -/
  | zeroInterval
  deriving DecidableEq, Repr

/-- The text of the error, where it has one. -/
def SettingsError.message? : SettingsError → Option String
  | .unreadable => none
  | .zeroInterval => some "Invalid configuration: autosave.interval_secs must be positive"

namespace AutosaveSettings

/-- The interval as a duration. -/
def interval (c : AutosaveSettings) : Duration := .ofSeconds c.intervalSeconds

/-- The written form. -/
def toJson (c : AutosaveSettings) : Json :=
  .object [("enabled", .bool c.enabled), ("interval_secs", .ofNat c.intervalSeconds)]

/-- Reads the written form; both keys may be missing. -/
def read : Json.Reads AutosaveSettings := fun room t => do
  let (room, [enabled, seconds]) ← Json.fields? ["enabled", "interval_secs"] room t | none
  let base : AutosaveSettings := {}
  let enabled ← Json.withDefault base.enabled Json.readBool room enabled
  let seconds ← Json.withDefault base.intervalSeconds Json.readNat room seconds
  pure ⟨enabled, seconds⟩

end AutosaveSettings

namespace Settings

/-- The written form. -/
def toJson (c : Settings) : Json := .object [("autosave", c.autosave.toJson)]

/-- Reads the written form; the key may be missing. -/
def read : Json.Reads Settings := fun room t => do
  let (room, [autosave]) ← Json.fields? ["autosave"] room t | none
  let autosave ← Json.withDefault {} AutosaveSettings.read room autosave
  pure ⟨autosave⟩

/-- The configuration can be used: its interval is positive. -/
def isValid (c : Settings) : Bool := c.autosave.intervalSeconds != 0

/-- **Reads and checks a configuration.** -/
def ofText (text : String) : Except SettingsError Settings :=
  match Json.readText? read text with
  | none => .error .unreadable
  | some c => if c.isValid then .ok c else .error .zeroInterval

end Settings

end Folio
