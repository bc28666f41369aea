import HostBridge.Host.HostType
import HostBridge.Host.Method
import HostBridge.Number.Binary64

/-! # Values

A value is a payload together with the host type it came from. Natives, closures and host objects
carry the handle under which the runtime made them; copies of a value carry the same handle, and
that is all their identity consists of. The entries of a dict are kept in the order of their keys.
-/
namespace HostBridge

/-- The place of a construction among all those of a run. -/
abbrev Handle := Nat

mutual

inductive Value where
  | mk (payload : Payload) (host : HostType)

inductive Payload where
  | none
  | bool (b : Bool)
  | int (i : Int64)
  | float (x : Binary64)
  | str (s : String)
  | list (items : List Value)
  | dict (entries : List (String × Value))
  | callable (c : Callable)
  /-- A host object that the runtime only passes on, and the type it was made with. -/
  | object (handle : Handle) (made : HostType)

inductive Callable where
  | native (handle : Handle) (method : Method)
  | bound (receiver : Value) (function : Callable)
  | closure (handle : Handle) (name : String) (body : BodyId)

end

namespace Callable

def typeName : Callable → String
  | native _ _ => "builtin_function_or_method"
  | bound _ _ => "method"
  | closure _ _ _ => "function"

/-- A bound method goes by the name of its function. -/
def name : Callable → String
  | native _ method => method.qualifiedName
  | bound _ function => function.name
  | closure _ name _ => name

def text (c : Callable) : String := "<" ++ c.typeName ++ " " ++ c.name ++ ">"

def hostType : Callable → HostType
  | native _ _ => .method
  | bound _ _ => .bound
  | closure _ _ _ => .closure

end Callable

namespace Value

def payload : Value → Payload
  | mk payload _ => payload

def host : Value → HostType
  | mk _ host => host

instance : Inhabited Value := ⟨mk .none .unit⟩

/-! ## Values with the host type that belongs to their payload -/

def none : Value := mk .none .unit
def ofBool (b : Bool) : Value := mk (.bool b) .bool
def ofInt (i : Int64) : Value := mk (.int i) .int
def ofFloat (x : Binary64) : Value := mk (.float x) .float
def ofString (s : String) : Value := mk (.str s) .string
def ofList (items : List Value) : Value := mk (.list items) .list
def ofCallable (c : Callable) : Value := mk (.callable c) c.hostType
def ofObject (handle : Handle) (type : HostType) : Value := mk (.object handle type) type

/-- The entries with one more: in the place that its key has in code point order, instead of an
entry that already has this key. -/
def insertEntry (key : String) (value : Value) :
    List (String × Value) → List (String × Value)
  | [] => [(key, value)]
  | entry :: rest =>
    if key < entry.1 then (key, value) :: entry :: rest
    else if key = entry.1 then (key, value) :: rest
    else entry :: insertEntry key value rest

/-- Entries in key order; of several with one key the last counts. -/
def sortEntries (entries : List (String × Value)) : List (String × Value) :=
  entries.foldl (fun sorted entry => insertEntry entry.1 entry.2 sorted) []

def ofEntries (entries : List (String × Value)) : Value := mk (.dict (sortEntries entries)) .dict

def relabel (v : Value) (type : HostType) : Value := mk v.payload type

/-! ## Looking at a value -/

def isNone (v : Value) : Bool := match v.payload with
  | .none => true
  | _ => false

def isCallable (v : Value) : Bool := match v.payload with
  | .callable _ => true
  | _ => false

def asBool (v : Value) : Option Bool := match v.payload with
  | .bool b => some b
  | _ => Option.none

/-- Truth values count as integers. -/
def asInt (v : Value) : Option Int64 := match v.payload with
  | .int i => some i
  | .bool b => some (if b then 1 else 0)
  | _ => Option.none

/-- Integers are rounded to the nearest number; truth values do not count. -/
def asFloat (v : Value) : Option Binary64 := match v.payload with
  | .float x => some x
  | .int i => some (Binary64.ofInt i.toInt)
  | _ => Option.none

def asString (v : Value) : Option String := match v.payload with
  | .str s => some s
  | _ => Option.none

def asList (v : Value) : Option (List Value) := match v.payload with
  | .list items => some items
  | _ => Option.none

def asDict (v : Value) : Option (List (String × Value)) := match v.payload with
  | .dict entries => some entries
  | _ => Option.none

def asCallable (v : Value) : Option Callable := match v.payload with
  | .callable c => some c
  | _ => Option.none

/-- The value is a host object that was made with the given type, whatever its host type says. -/
def holds (v : Value) (type : HostType) : Bool := match v.payload with
  | .object _ made => made = type
  | _ => false

/-- Truth as the dynamic runtime sees it: empty and zero are false. -/
def isTruthy (v : Value) : Bool := match v.payload with
  | .none => false
  | .bool b => b
  | .int i => i != 0
  | .float x => x.isNonzero
  | .str s => !s.isEmpty
  | .list items => !items.isEmpty
  | .dict entries => !entries.isEmpty
  | .callable _ | .object _ _ => true

/-- The name of the value's type as the dynamic runtime sees it. A host object goes by the short
name of its host type. -/
def typeName (v : Value) : String := match v.payload with
  | .none => "NoneType"
  | .bool _ => "bool"
  | .int _ => "int"
  | .float _ => "float"
  | .str _ => "str"
  | .list _ => "list"
  | .dict _ => "dict"
  | .callable c => c.typeName
  | .object _ _ => v.host.short

end Value

end HostBridge
