/-! # Events

What the runtime reports while it works: the span of a native call opens and closes, and records are
emitted inside and outside of it. An event is kept by its meaning; level, source and fields follow.
-/
namespace HostBridge

inductive Level where
  | error
  | warn
  | info
  | debug
  | trace
deriving DecidableEq, Repr

namespace Level

def rank : Level → Nat
  | error => 1
  | warn => 2
  | info => 3
  | debug => 4
  | trace => 5

def word : Level → String
  | error => "ERROR"
  | warn => "WARN"
  | info => "INFO"
  | debug => "DEBUG"
  | trace => "TRACE"

end Level

inductive Event where
  | entered (method : String)
  | called (method : String) (positional keywords : Nat)
  | returned (method : String)
  | raised (method error : String)
  | denied (method : String)
  | completed (operation : String)
  | exited
  | starting
  | stopping
  | ready
  | skipped (path error : String)
deriving DecidableEq, Repr

/-- The value of a field: text that is written escaped, text that is written as it is, a number, or
an elapsed time, which is never looked at. -/
inductive FieldValue where
  | text (s : String)
  | bare (s : String)
  | number (n : Nat)
  | elapsed
deriving DecidableEq, Repr

structure Record where
  level : Level
  target : String
  message : String
  fields : List (String × FieldValue)
deriving DecidableEq, Repr

def spanTarget : String := "pyhost::interop::native"

def spanLevel : Level := .debug

def spanName : String := "native_call"

namespace Event

def logTarget : String := "pyhost::logging"

/-- The record of an event; opening and closing a span is no record. -/
def record? : Event → Option Record
  | entered _ | exited => none
  | called method positional keywords =>
    some ⟨.debug, logTarget, "Static native method called",
      [("event", .text "native_call"), ("method", .text method),
        ("positional", .number positional), ("keywords", .number keywords)]⟩
  | returned method =>
    some ⟨.trace, logTarget, "Static native method returned",
      [("event", .text "native_return"), ("method", .text method)]⟩
  | raised method error =>
    some ⟨.warn, logTarget, "Static native method raised",
      [("event", .text "native_error"), ("method", .text method), ("error", .text error)]⟩
  | denied method =>
    some ⟨.error, logTarget, "Illegal access to static native method",
      [("event", .text "access_denied"), ("method", .text method)]⟩
  | completed operation =>
    some ⟨.debug, "pyhost::logging::perf", "operation completed",
      [("operation", .bare operation), ("duration_us", .elapsed)]⟩
  | starting =>
    some ⟨.info, logTarget, "pyhost runtime initializing", [("event", .text "runtime_init")]⟩
  | stopping =>
    some ⟨.info, logTarget, "pyhost runtime shutting down", [("event", .text "runtime_shutdown")]⟩
  | ready => some ⟨.debug, "pyhost::interop", "interop subsystem initialized", []⟩
  | skipped path error =>
    some ⟨.warn, "pyhost::config", "Skipping unreadable config file",
      [("path", .bare path), ("error", .bare error)]⟩

end Event

end HostBridge
