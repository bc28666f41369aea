import HostBridge.Exception.Kind
import HostBridge.Text.Escaped
import HostBridge.Text.Record

/-! # Exceptions

An exception is raised with a kind and a message, or it reports that a native call failed: because
the method was out of reach, or because the method itself raised. A report keeps what it reports and
takes its own message from it, so the message of a chain of reports is the text of the exception at
its end.
-/
namespace HostBridge

inductive Exception where
  | raised (kind : ExceptionKind) (message : String)
  /-- A native call was refused; the method is named in full. -/
  | illegalAccess (method : String)
  | targetRaised (cause : Exception)
deriving DecidableEq, Repr

namespace Exception

def kind : Exception → ExceptionKind
  | raised kind _ => kind
  | illegalAccess _ | targetRaised _ => .runtimeError

/-- A kind and a message on one line; an empty message is left out with its colon. -/
def line (kind : ExceptionKind) (message : String) : String :=
  if message.isEmpty then kind.name else kind.name ++ ": " ++ message

def message : Exception → String
  | raised _ message => message
  | illegalAccess method => "Illegal access to host static method " ++ method
  | targetRaised cause => line cause.kind cause.message

def text (e : Exception) : String := line e.kind e.message

def cause : Exception → Option Exception
  | targetRaised cause => some cause
  | raised _ _ | illegalAccess _ => none

/-- The exceptions below this one, nearest first. -/
def sources : Exception → List Exception
  | targetRaised cause => cause :: cause.sources
  | raised _ _ | illegalAccess _ => []

def isInstance (e : Exception) (kind : ExceptionKind) : Bool := e.kind.isSubclassOf kind

def typeError (message : String) : Exception := raised .typeError message

def valueError (message : String) : Exception := raised .valueError message

def runtimeError (message : String) : Exception := raised .runtimeError message

open Text in
def debug : Exception → String
  | raised kind message => write kind message "None"
  | illegalAccess method =>
    write .runtimeError (message (illegalAccess method))
      ("Some(" ++ record "IllegalAccess" [⟨"method", escaped method⟩] ++ ")")
  | targetRaised cause =>
    write .runtimeError (message (targetRaised cause))
      ("Some(" ++ record "TargetRaised" [⟨"cause", cause.debug⟩] ++ ")")
where
  write (kind : ExceptionKind) (message native : String) : String :=
    record "PyException"
      [⟨"kind", kind.name⟩, ⟨"message", escaped message⟩, ⟨"native", native⟩]

end Exception

end HostBridge
