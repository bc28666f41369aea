import HostBridge.Call.Settings

/-! # Settings of the runtime

What a configuration file can say. Everything has a default, so a file may leave out any part.
-/
namespace HostBridge

structure LoggingSettings where
  /-- The level as it is written; whether it names one is decided when logging is set up. -/
  level : String := "info"
  file : Option String := none
  json : Bool := false
  spans : Bool := false
deriving DecidableEq, Repr

structure Settings where
  logging : LoggingSettings := {}
  calls : NativeSettings := {}
deriving DecidableEq, Repr

namespace Settings

def isDefault (s : Settings) : Bool := s = {}

end Settings

end HostBridge
