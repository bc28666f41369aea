import HostBridge.Call.Event
import HostBridge.Config.Settings

/-! # Settings of the log

Where the log goes and what it shows, as configured by a file, by the environment, or for looking at
everything. A level that is not understood is taken for the middle one.
-/
namespace HostBridge

namespace Level

def ofName? (name : String) : Option Level :=
  match name.map Char.toLower with
  | "error" => some error
  | "warn" => some warn
  | "info" => some info
  | "debug" => some debug
  | "trace" => some trace
  | _ => none

def ofRank? : Nat → Option Level
  | 1 => some error
  | 2 => some warn
  | 3 => some info
  | 4 => some debug
  | 5 => some trace
  | _ => none

/-- A natural number in digits, with or without a plus sign. -/
def number? (text : List Char) : Option Nat :=
  let ds := match text with
    | '+' :: rest => rest
    | cs => cs
  if !ds.isEmpty && ds.all Char.isDigit then
    some (ds.foldl (fun n c => 10 * n + (c.toNat - 48)) 0)
  else none

def ofText? (text : String) : Option Level :=
  match (number? text.toList).bind ofRank? with
  | some level => some level
  | none => ofName? text

end Level

structure LogSettings where
  level : Level := .info
  toFile : Bool := false
  path : Option String := none
  json : Bool := false
  showSpans : Bool := false
deriving DecidableEq, Repr

structure Environment where
  level : Option String := none
  file : Option String := none
  json : Option String := none
  spans : Option String := none
  /-- What is shown, instead of what the level says. -/
  filter : Option String := none
deriving DecidableEq, Repr

namespace LogSettings

def verbose : LogSettings := { level := .trace, showSpans := true }

/-- Of the last two variables only the presence counts. -/
def ofEnvironment (env : Environment) : LogSettings where
  level := (env.level.bind Level.ofText?).getD .info
  toFile := env.file.isSome
  path := env.file
  json := env.json.isSome
  showSpans := env.spans.isSome

end LogSettings

def LoggingSettings.log (s : LoggingSettings) : LogSettings where
  level := (Level.ofText? s.level).getD .info
  toFile := s.file.isSome
  path := s.file
  json := s.json
  showSpans := s.spans

end HostBridge
