import HostBridge.Call.World
import HostBridge.Files.Tree
import HostBridge.Log.Line

/-! # Sessions

A run together with its log. The first logger whose file can be opened is installed and stays; it
shows what happens after it was installed. Every time the runtime is begun its events are emitted,
whether its logger was installed or another one was there already.
-/
namespace HostBridge

open Files (Node)

/-- Where a log file is: the names that lead to it from the root of all files. -/
abbrev LogPlace := List String

structure Logger where
  settings : LogSettings
  filter : Filter
  /-- How many events came before it. -/
  since : Nat
  file : Option LogPlace
deriving DecidableEq, Repr

structure Session where
  world : World
  logger : Option Logger
  /-- All files there are. -/
  files : Node
  /-- The working directory. -/
  here : List String
  failures : Nat

namespace LogPlace

/-- The system takes the text for a path: it is not too long and no character ends it early. -/
def isPath (path : String) : Bool := path.utf8ByteSize < 4096 && !path.toList.contains '\x00'

def isName (name : String) : Bool := name.utf8ByteSize ≤ 255

/-- The place that a step leads to from a directory. A directory is made if nothing is there. The
root is its own parent. -/
def enter (root : Node) (place : LogPlace) (step : String) : Option (Node × LogPlace) :=
  if step = ".." then some (root, place.dropLast)
  else if !isName step then none
  else
    match root.find? (place ++ [step]) with
    | some (.directory _) => some (root, place ++ [step])
    | some (.file _) => none
    | none => some (root.put (place ++ [step]) Node.emptyDirectory, place ++ [step])

/-- Follows steps to a directory. The tree keeps what was made before a step failed. -/
def enterAll (root : Node) (place : LogPlace) : List String → Node × Option LogPlace
  | [] => (root, some place)
  | step :: rest =>
    match enter root place step with
    | some (root, place) => enterAll root place rest
    | none => (root, none)

def defaultName : String := "pyhost.log"

/-- The name of the file that a path leads to. A path that ends in a step back names none. -/
def fileName (path : String) : String :=
  match (Files.components path).getLast? with
  | none | some ".." => defaultName
  | some name => name

/-- The path of the directory that the file is in. -/
def directoryPath (path : String) : String :=
  match Files.parent? path with
  | none | some "" => "."
  | some directory => directory

/-- Where a path begins: at the root of all files, or in the working directory. -/
def base (here : List String) (path : String) : LogPlace := if Files.isAbsolute path then [] else here

/-- Opens a log file, making its directory. Nothing is made for a directory that is no path at all. -/
def openFile (root : Node) (here : List String) (path : String) : Node × Option LogPlace :=
  let directory := directoryPath path
  let name := fileName path
  if !isPath directory then (root, none)
  else
    match enterAll root (base here directory) (Files.components directory) with
    | (root, none) => (root, none)
    | (root, some place) =>
      if !isName name || !isPath (Files.join directory name) then (root, none)
      else openIn root (place ++ [name])
where
  openIn (root : Node) (place : LogPlace) : Node × Option LogPlace :=
    match root.find? place with
    | some (.directory _) => (root, none)
    | some (.file _) => (root, some place)
    | none => (root.put place (.file ByteArray.empty), some place)

end LogPlace

namespace Session

/-- A session that begins in a working directory with nothing in it. -/
def startedIn (here : List String) : Session :=
  ⟨.initial, none, Node.emptyDirectory.put here Node.emptyDirectory, here, 0⟩

def isSetUp (s : Session) : Bool := s.logger.isSome

def filePath (settings : LogSettings) : Option String :=
  if settings.toFile then settings.path else none

def install (s : Session) (env : Environment) (settings : LogSettings) (file : Option LogPlace) :
    Session :=
  { s with
    logger := some ⟨settings, Filter.choose env settings.level, s.world.events.size, file⟩ }

/-- Sets up logging, unless that has been done. Also says whether it went well: a logger whose file
cannot be opened is not installed. -/
def setUp (s : Session) (env : Environment) (settings : LogSettings) : Bool × Session :=
  match s.logger with
  | some _ => (true, s)
  | none =>
    match filePath settings with
    | none => (true, s.install env settings none)
    | some path =>
      match LogPlace.openFile s.files s.here path with
      | (files, some place) => (true, { s with files }.install env settings (some place))
      | (files, none) => (false, { s with files, failures := s.failures + 1 })

def emit (s : Session) (event : Event) : Session := { s with world := s.world.emit event }

/-- Begins the runtime: sets up logging and reports. A set-up that fails ends it. -/
def begin (s : Session) (env : Environment) (settings : LogSettings) : Session :=
  match s.setUp env settings with
  | (true, s) => (s.emit .starting).emit .ready
  | (false, s) => s

def entriesFor (s : Session) (logger : Logger) : List Entry :=
  entries logger.filter logger.settings.showSpans [] (s.world.events.toList.drop logger.since)

def withoutReturn (line : List Char) : List Char :=
  if line.getLast? = some '\r' then line.dropLast else line

/-- The lines of an entry: a line end inside of it begins a new one. -/
def lines (entry : String) : List String :=
  (entry.splitOn "\n").map fun line => String.ofList (withoutReturn line.toList)

def console (s : Session) : List ConsoleOutput :=
  match s.logger with
  | none => []
  | some logger =>
    (s.entriesFor logger).flatMap fun e =>
      if logger.settings.json then [.object e] else (lines e.consoleLine).map .line

/-- The place and the lines of the log file. -/
def logFile (s : Session) : Option (LogPlace × List String) :=
  match s.logger with
  | some logger =>
    logger.file.map fun place => (place, (s.entriesFor logger).flatMap fun e => lines e.fileLine)
  | none => none

end Session

end HostBridge
