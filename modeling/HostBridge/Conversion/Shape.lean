import HostBridge.Exception.Basic
import HostBridge.Value.Basic

/-! # Conversion shapes

A shape says what a method body wants to read from a dynamic value: anything, one of four kinds of
plain value, a list of a shape, or a shape that may be missing. Each shape has a type of host
values; reading takes a dynamic value to it and writing takes it back.
-/
namespace HostBridge

inductive Shape where
  | object
  | bool
  | int
  | float
  | str
  | list (of : Shape)
  | option (of : Shape)
deriving DecidableEq, Repr

namespace Shape

def Host : Shape → Type
  | object => Value
  | bool => Bool
  | int => Int64
  | float => Binary64
  | str => String
  | list of => List of.Host
  | option of => Option of.Host

/-- The name of a shape in messages. What may be missing goes by the name of what is wanted. -/
def name : Shape → String
  | object => "object"
  | bool => "bool"
  | int => "int"
  | float => "float"
  | str => "str"
  | list _ => "list"
  | option of => of.name

end Shape

inductive ReadError where
  | mismatch (expected got : String)
  | missing (index count : Nat)
deriving DecidableEq, Repr

namespace ReadError

def message : ReadError → String
  | mismatch expected got => "expected " ++ expected ++ ", got " ++ got
  | missing index count =>
    "missing required positional argument " ++ toString index ++ " (got " ++ toString count ++ ")"

def exception (e : ReadError) : Exception := .typeError e.message

end ReadError

namespace Shape

def orMismatch {α : Type} (s : Shape) (v : Value) : Option α → Except ReadError α
  | some a => .ok a
  | none => .error (.mismatch s.name v.typeName)

def readEach {α : Type} (read : Value → Except ReadError α) :
    List Value → Except ReadError (List α)
  | [] => .ok []
  | v :: rest =>
    match read v with
    | .error e => .error e
    | .ok a =>
      match readEach read rest with
      | .error e => .error e
      | .ok as => .ok (a :: as)

/-- The host value of a shape in a dynamic value. A list is checked before its elements. -/
def read : (s : Shape) → Value → Except ReadError s.Host
  | object, v => .ok v
  | bool, v => orMismatch bool v v.asBool
  | int, v => orMismatch int v v.asInt
  | float, v => orMismatch float v v.asFloat
  | str, v => orMismatch str v v.asString
  | list of, v =>
    match v.asList with
    | none => .error (.mismatch (list of).name v.typeName)
    | some items => readEach of.read items
  | option of, v =>
    if v.isNone then .ok none
    else match of.read v with
      | .error e => .error e
      | .ok a => .ok (some a)

def write : (s : Shape) → s.Host → Value
  | object, v => v
  | bool, b => Value.ofBool b
  | int, i => Value.ofInt i
  | float, x => Value.ofFloat x
  | str, s => Value.ofString s
  | list of, items => Value.ofList (items.map of.write)
  | option _, none => Value.none
  | option of, some a => of.write a

def argument (s : Shape) (args : List Value) (index : Nat) : Except ReadError s.Host :=
  match args[index]? with
  | some v => s.read v
  | none => .error (.missing index args.length)

def convert (s : Shape) (v : Value) : Except ReadError Value := (s.read v).map s.write

def convertArgument (s : Shape) (args : List Value) (index : Nat) : Except ReadError Value :=
  (s.argument args index).map s.write

end Shape

end HostBridge
