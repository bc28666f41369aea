/-! # Exception kinds

The fixed hierarchy of exception kinds. Every kind but the root has one base, so the bases of a kind
form a chain up to the root.
-/
namespace HostBridge

inductive ExceptionKind where
  | baseException
  | exception
  | arithmeticError
  | zeroDivisionError
  | attributeError
  | lookupError
  | indexError
  | keyError
  | nameError
  | runtimeError
  | notImplementedError
  | systemError
  | typeError
  | valueError
deriving DecidableEq, Repr

namespace ExceptionKind

def all : List ExceptionKind :=
  [baseException, exception, arithmeticError, zeroDivisionError, attributeError, lookupError,
    indexError, keyError, nameError, runtimeError, notImplementedError, systemError, typeError,
    valueError]

def parent : ExceptionKind → Option ExceptionKind
  | baseException => none
  | exception => some baseException
  | arithmeticError | attributeError | lookupError | nameError | runtimeError | systemError
  | typeError | valueError => some exception
  | zeroDivisionError => some arithmeticError
  | indexError | keyError => some lookupError
  | notImplementedError => some runtimeError

def climb : Nat → ExceptionKind → List ExceptionKind
  | 0, k => [k]
  | n + 1, k => k :: match k.parent with
    | none => []
    | some p => climb n p

/-- The kind and all its bases: no kind is more than three steps below the root. -/
def lineage (k : ExceptionKind) : List ExceptionKind := climb 3 k

/-- A kind is a subclass of itself and of each of its bases. -/
def isSubclassOf (k base : ExceptionKind) : Bool := k.lineage.contains base

def name : ExceptionKind → String
  | baseException => "BaseException"
  | exception => "Exception"
  | arithmeticError => "ArithmeticError"
  | zeroDivisionError => "ZeroDivisionError"
  | attributeError => "AttributeError"
  | lookupError => "LookupError"
  | indexError => "IndexError"
  | keyError => "KeyError"
  | nameError => "NameError"
  | runtimeError => "RuntimeError"
  | notImplementedError => "NotImplementedError"
  | systemError => "SystemError"
  | typeError => "TypeError"
  | valueError => "ValueError"

def ofName? (name : String) : Option ExceptionKind := all.find? fun k => k.name = name

end ExceptionKind

end HostBridge
