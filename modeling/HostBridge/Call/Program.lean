import HostBridge.Call.Settings
import HostBridge.Call.Statistics
import HostBridge.Exception.Basic
import HostBridge.Value.Keywords

/-! # Programs of bodies

What a body does with its arguments is a finite tree: it ends by returning, raising or panicking, or
it asks the runtime for something and goes on with the answer. A body can call values, look at and
reset the statistics, keep values from one call to the next, and make new objects, bodies, closures
and natives. It sees an exception raised by what it calls; a panic passes through it.
-/
namespace HostBridge

/-- What a panic carries. A payload that is no text is known by a token: nothing looks into it, but it
is told from others. -/
inductive Panic where
  | text (message : String)
  | other (token : Nat)
deriving DecidableEq, Repr

abbrev Cell := Nat

/-- How a call ends as far as its caller can tell. -/
abbrev Answer := Except Exception Value

inductive Program where
  | finish (answer : Answer)
  | panic (payload : Panic)
  | call (target : Value) (args : List Value) (kwargs : Keywords) (next : Answer → Program)
  | look (next : Snapshot → Program)
  | count (method : String) (next : UInt64 → Program)
  | reset (next : Program)
  | fetch (cell : Cell) (next : Value → Program)
  | keep (cell : Cell) (value : Value) (next : Program)
  | makeObject (type : HostType) (next : Value → Program)
  | makeBody (body : List Value → Keywords → Program) (next : BodyId → Program)
  | makeClosure (name : String) (body : BodyId) (next : Value → Program)
  | wrap (method : Method) (settings : NativeSettings) (next : Answer → Program)

namespace Program

def give (v : Value) : Program := finish (.ok v)

def raise (e : Exception) : Program := finish (.error e)

end Program

abbrev Behaviour := List Value → Keywords → Program

end HostBridge
