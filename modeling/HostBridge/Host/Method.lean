import HostBridge.Text.Escaped
import HostBridge.Text.Record

/-! # Host methods

A resolved reference to a method of the host: who owns it, how it may be reached, whether it takes a
receiver, and which body runs when it is called.
-/
namespace HostBridge

inductive Visibility where
  | isPublic
  | isProtected
  | isPackage
  | isPrivate
deriving DecidableEq, Repr

namespace Visibility

def word : Visibility → String
  | isPublic => "public"
  | isProtected => "protected"
  | isPackage => "package"
  | isPrivate => "private"

def title : Visibility → String
  | isPublic => "Public"
  | isProtected => "Protected"
  | isPackage => "Package"
  | isPrivate => "Private"

end Visibility

abbrev BodyId := Nat

structure Method where
  owner : String
  name : String
  visibility : Visibility
  exempt : Bool
  isStatic : Bool
  body : BodyId
deriving DecidableEq, Repr

namespace Method

def qualifiedName (m : Method) : String := m.owner ++ "." ++ m.name

/-- Public methods can be reached, and those whose access checks are lifted. -/
def isAccessible (m : Method) : Bool := m.visibility = .isPublic || m.exempt

def text (m : Method) : String :=
  m.visibility.word ++ " " ++ (if m.isStatic then "static " else "") ++ m.qualifiedName ++
    "(*args, **kwargs)"

open Text in
def debug (m : Method) : String :=
  openRecord "HostMethod"
    [⟨"owner", escaped m.owner⟩, ⟨"name", escaped m.name⟩, ⟨"visibility", m.visibility.title⟩,
      ⟨"accessible", truthWord m.exempt⟩, ⟨"is_static", truthWord m.isStatic⟩]

end Method

end HostBridge
