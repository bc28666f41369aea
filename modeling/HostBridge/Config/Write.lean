import HostBridge.Config.Settings
import HostBridge.Document.Writer
import HostBridge.Text.Record

/-! # Settings as a document

Every setting on a line of its own, under the header of its group. A log file that is not set has no
line.
-/
namespace HostBridge

open Document (writeText)

def settingLine (name value : String) : String := name ++ " = " ++ value ++ "\n"

def LoggingSettings.lines (s : LoggingSettings) : String :=
  settingLine "level" (writeText s.level) ++
    (match s.file with
      | some file => settingLine "file" (writeText file)
      | none => "") ++
    settingLine "json" (Text.truthWord s.json) ++ settingLine "spans" (Text.truthWord s.spans)

def NativeSettings.lines (s : NativeSettings) : String :=
  settingLine "track_stats" (Text.truthWord s.trackStatistics) ++
    settingLine "catch_panics" (Text.truthWord s.catchPanics)

def Settings.document (s : Settings) : String :=
  "[logging]\n" ++ s.logging.lines ++ "\n[interop]\n" ++ s.calls.lines

end HostBridge
