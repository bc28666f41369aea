import HostBridge.Call.Event
import HostBridge.Config.Decode
import HostBridge.Config.Write
import HostBridge.Files.System

/-! # Settings in files

Settings are loaded from a file, saved to one, and discovered: starting in a directory and going up,
the first of the two names whose file can be loaded counts. A file that is there but cannot be
loaded is reported and passed over.
-/
namespace HostBridge

open Files (Node FileError FileSystem)

inductive ConfigError where
  | inaccessible (e : FileError)
  | unreadable (e : ParseError)

def ConfigError.headline : ConfigError → String
  | inaccessible _ => "Failed to access config"
  | unreadable _ => "Failed to parse config"

namespace Settings

/-- The settings in a file, from what reading it gives. -/
def ofFile : Except FileError String → Except ConfigError Settings
  | .error e => .error (.inaccessible e)
  | .ok text =>
    match parse text with
    | .error e => .error (.unreadable e)
    | .ok s => .ok s

def load (root : Node) (path : List String) : Except ConfigError Settings := ofFile (root.read path)

def save (s : Settings) (root : Node) (path : List String) : Except ConfigError Node :=
  match root.write path s.document with
  | .error e => .error (.inaccessible e)
  | .ok root => .ok root

/-- The names of configuration files, the one that counts first in front. -/
def fileNames : List String := [".pyhostrc", ".pyhostrc.toml"]

/-- The first settings that load from a file with one of these names in a directory, and a report of
each file before it that is there and does not load. -/
def searchIn (fs : FileSystem) (directory : String) : List String → Option Settings × List Event
  | [] => (none, [])
  | name :: names =>
    let path := Files.join directory name
    if fs.isThere path then
      match ofFile (fs.read path) with
      | .ok s => (some s, [])
      | .error e =>
        match searchIn fs directory names with
        | (s?, reports) => (s?, .skipped path e.headline :: reports)
    else searchIn fs directory names

/-- The settings for a directory: those found in it, or else in its parent, and so on up. -/
def discoverFrom (fs : FileSystem) (directory : String) : Settings × List Event :=
  match searchIn fs directory fileNames with
  | (some s, reports) => (s, reports)
  | (none, reports) =>
    match _h : Files.parent? directory with
    | none => ({}, reports)
    | some up =>
      match discoverFrom fs up with
      | (s, later) => (s, reports ++ later)
termination_by directory.length
decreasing_by exact (Files.parent?_isPrefix _h).2

/-- The settings for a path in a tree that is mounted at a directory. -/
def discover (root : Node) (base start : String) : Settings × List Event :=
  discoverFrom (root.mounted base) (Files.join base start)

/-- The settings for a working directory, which is known by its real place. -/
def discoverHere (root : Node) (base start : String) : Settings × List Event :=
  match root.follow [] (Files.steps start) with
  | .ok here => discoverFrom (root.mounted base) ("/".intercalate (base :: here))
  | .error _ => ({}, [])

end Settings

end HostBridge
