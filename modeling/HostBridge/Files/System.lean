import HostBridge.Files.Tree

/-! # File systems

What can be found out about a path from its text: whether something is there, and what a file says.
A tree is one at the place where it is mounted, with nothing around it.
-/
namespace HostBridge.Files

structure FileSystem where
  isThere : String → Bool
  read : String → Except FileError String
  /-- What can be read is there. -/
  isThere_of_read : ∀ {path text}, read path = .ok text → isThere path = true

/-- The steps of a path from a directory on, if its text leads over this directory. -/
def below? (directory path : String) : Option (List String) :=
  if path = directory then some []
  else ((directory.toList ++ ['/']).isPrefixOf? path.toList).map fun rest =>
    steps (String.ofList rest)

namespace Node

theorem isThere_of_read {root : Node} {path : List String} {text : String}
    (h : root.read path = .ok text) : root.isThere path = true := by
  rw [read] at h
  rw [isThere]
  cases hg : root.get path with
  | ok node => rfl
  | error e => rw [hg] at h; cases h

def mounted (root : Node) (directory : String) : FileSystem where
  isThere path := match below? directory path with
    | some steps => root.isThere steps
    | none => false
  read path := match below? directory path with
    | some steps => root.read steps
    | none => .error .notFound
  isThere_of_read {path text} h := by
    split at h
    · exact isThere_of_read h
    · cases h

end Node

end HostBridge.Files
