/-! # Host types

A host type is known by its full name. The short name is what is left of it when generic arguments
and the path are dropped.
-/
namespace HostBridge

def afterLastColons? : List Char → Option (List Char)
  | ':' :: ':' :: rest => some ((afterLastColons? (':' :: rest)).getD rest)
  | _ :: rest => afterLastColons? rest
  | [] => none

/-- The last path segment of a name, generic arguments dropped first: a pair of colons among the
arguments separates nothing. -/
def shortName (name : List Char) : List Char :=
  let base := name.takeWhile (· != '<')
  (afterLastColons? base).getD base

structure HostType where
  name : String
deriving DecidableEq, Repr

namespace HostType

def short (t : HostType) : String := String.ofList (shortName t.name.toList)

def debug (t : HostType) : String := "HostType(" ++ t.name ++ ")"

/-! The host types that values of the runtime itself have. -/

def unit : HostType := ⟨"()"⟩
def bool : HostType := ⟨"bool"⟩
def int : HostType := ⟨"i64"⟩
def float : HostType := ⟨"f64"⟩
def string : HostType := ⟨"alloc::string::String"⟩
def value : HostType := ⟨"pyhost::objects::DynamicValue"⟩
def list : HostType := ⟨"alloc::vec::Vec<" ++ value.name ++ ">"⟩
def dict : HostType :=
  ⟨"alloc::collections::btree::map::BTreeMap<" ++ string.name ++ ", " ++ value.name ++ ">"⟩
def method : HostType := ⟨"pyhost::interop::method::HostMethod"⟩
def bound : HostType := ⟨"pyhost::interop::callable::BoundMethod"⟩
def closure : HostType := ⟨"pyhost::interop::callable::Closure"⟩

end HostType

end HostBridge
