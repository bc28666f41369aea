import HostBridge.Files.Path

/-! # File trees

A directory with everything below it. Looking up a path follows its steps: a step back from the top
leads out of the tree, where nothing is found.
-/
namespace HostBridge.Files

inductive Node where
  | file (content : ByteArray)
  | directory (entries : List (String × Node))

inductive FileError where
  | notFound
  | isADirectory
  | notADirectory
  | invalidData
deriving DecidableEq, Repr

namespace Node

def emptyDirectory : Node := .directory []

def isDirectory : Node → Bool
  | directory _ => true
  | file _ => false

def find? : List String → Node → Option Node
  | [], node => some node
  | name :: names, directory entries => (entries.lookup name).bind (find? names)
  | _ :: _, file _ => none

def setEntry (name : String) (node : Node) : List (String × Node) → List (String × Node)
  | [] => [(name, node)]
  | entry :: rest =>
    if entry.1 = name then (name, node) :: rest else entry :: setEntry name node rest

def put : Node → List String → Node → Node
  | _, [], new => new
  | directory entries, name :: names, new =>
    directory (setEntry name (((entries.lookup name).getD emptyDirectory).put names new) entries)
  | file _, name :: names, new => directory [(name, emptyDirectory.put names new)]

/-- Follows the steps of a path from the place that names lead to. What the last step leads to need
not be there; every step before it has to lead to a directory. -/
def follow (root : Node) (here : List String) : List String → Except FileError (List String)
  | [] => .ok here
  | step :: rest =>
    match root.find? here with
    | none => .error .notFound
    | some (file _) => .error .notADirectory
    | some (directory _) =>
      if !isStep step then follow root here rest
      else if step = ".." then
        if here.isEmpty then .error .notFound else follow root here.dropLast rest
      else follow root (here ++ [step]) rest

def get (root : Node) (path : List String) : Except FileError Node :=
  match root.follow [] path with
  | .error e => .error e
  | .ok here =>
    match root.find? here with
    | some node => .ok node
    | none => .error .notFound

def isThere (root : Node) (path : List String) : Bool :=
  match root.get path with
  | .ok _ => true
  | .error _ => false

def read (root : Node) (path : List String) : Except FileError String :=
  match root.get path with
  | .error e => .error e
  | .ok (directory _) => .error .isADirectory
  | .ok (file content) =>
    match String.fromUTF8? content with
    | some text => .ok text
    | none => .error .invalidData

def withoutSlashes (path : List String) : List String :=
  (path.reverse.dropWhile (· = "")).reverse

/-- The tree with a text written to the file at a path. The directory has to be there; the file need
not. A path that ends in a slash or in points means a directory. -/
def write (root : Node) (path : List String) (text : String) : Except FileError Node :=
  let named := withoutSlashes path
  match root.get named.dropLast with
  | .error e => .error e
  | .ok (file _) => .error .notADirectory
  | .ok (directory _) =>
    match path.getLast? with
    | none => .error .isADirectory
    | some step =>
      if !isStep step || step = ".." then .error .isADirectory
      else
        match root.follow [] path with
        | .error e => .error e
        | .ok here =>
          match root.find? here with
          | some (directory _) => .error .isADirectory
          | _ => .ok (root.put here (.file text.toUTF8))

end Node

end HostBridge.Files
