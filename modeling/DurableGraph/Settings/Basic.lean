import DurableGraph.Disk.Device

/-!
# Settings

How a store is to be opened.
-/

namespace DurableGraph

structure Settings where
  /-- The path of the device; empty where none was chosen. -/
  device : String
  /-- Format the device, which forgets its graph. -/
  format : Bool
  /-- Bypass the page cache. -/
  directIo : Bool
  /-- The least severe notices that a program shows. -/
  logLevel : String
  deriving DecidableEq, Repr

inductive SettingsError where
  | readFailed (path : String) (fault : FileFault)
  | malformed (line : Nat)
  | missingDevice
  deriving DecidableEq, Repr

namespace SettingsError

def message : SettingsError → String
  | readFailed path fault => "failed to read config " ++ path ++ ": " ++ fault.message
  | malformed line => "TOML parse error: line " ++ line.repr
  | missingDevice => "no device configured"

/-- The messages of the errors below this one. -/
def causes : SettingsError → List String
  | readFailed _ fault => [fault.message]
  | malformed line => ["line " ++ line.repr]
  | missingDevice => []

end SettingsError

namespace Settings

/-- What holds where nothing is said. -/
def standard : Settings := ⟨"", false, false, "warn"⟩

def forDevice (path : String) : Settings := { standard with device := path }

/-- A store needs a device. -/
def validate (settings : Settings) : Except SettingsError Unit :=
  if settings.device.isEmpty then .error .missingDevice else .ok ()

end Settings

end DurableGraph
