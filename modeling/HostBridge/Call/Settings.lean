import HostBridge.Text.Record

/-! # Settings of a native

What a native does besides calling: whether its calls are counted, and whether a panic in its body
is reported as a raised exception.
-/
namespace HostBridge

structure NativeSettings where
  trackStatistics : Bool := true
  catchPanics : Bool := true
deriving DecidableEq, Repr

open Text in
def NativeSettings.debug (s : NativeSettings) : String :=
  record "InteropConfig"
    [⟨"track_stats", truthWord s.trackStatistics⟩, ⟨"catch_panics", truthWord s.catchPanics⟩]

end HostBridge
