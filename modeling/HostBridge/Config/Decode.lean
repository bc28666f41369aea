import HostBridge.Config.Settings
import HostBridge.Document.Reader
import HostBridge.Number.Text
import HostBridge.Text.Escaped

/-! # Settings from a document

The entries of a document are looked at in their order, and the first one whose type does not fit is
reported. Names that mean nothing are passed over. A group of settings may also be written as an
array of its fields in order.
-/
namespace HostBridge

open Document (Datum)

inductive Wanted where
  | boolean
  | string
  | group (name : String)
deriving DecidableEq, Repr

def Wanted.text : Wanted → String
  | boolean => "a boolean"
  | string => "a string"
  | group name => "struct " ++ name

/-- What messages call a datum. Dates and times go as maps. -/
def Document.Datum.found : Datum → String
  | .string s => "string " ++ Text.escaped s
  | .integer i => "integer `" ++ toString i.toInt ++ "`"
  | .float x => "floating point `" ++ x.text .message ++ "`"
  | .boolean b => "boolean `" ++ Text.truthWord b ++ "`"
  | .moment | .table _ => "map"
  | .array _ => "sequence"

structure Mismatch where
  found : Datum
  wanted : Wanted

def Mismatch.message (m : Mismatch) : String :=
  "invalid type: " ++ m.found.found ++ ", expected " ++ m.wanted.text

structure Field (α : Type) where
  name : String
  set : α → Datum → Except Mismatch α

namespace Field

/-- A field that is read from the datum alone and then put in its place. -/
def reading {α β : Type} (name : String) (read : Datum → Except Mismatch β) (put : α → β → α) :
    Field α := ⟨name, fun a d => (read d).map (put a)⟩

def setNamed {α : Type} (fields : List (Field α)) (a : α) (entry : String × Datum) :
    Except Mismatch α :=
  match fields.find? (·.name = entry.1) with
  | some field => field.set a entry.2
  | none => .ok a

def setEntries {α : Type} (fields : List (Field α)) : List (String × Datum) → α →
    Except Mismatch α
  | [], a => .ok a
  | entry :: rest, a =>
    match setNamed fields a entry with
    | .ok a => setEntries fields rest a
    | .error e => .error e

/-- Sets fields by position. What is left over on either side is passed over. -/
def setItems {α : Type} : List (Field α) → List Datum → α → Except Mismatch α
  | field :: fields, datum :: rest, a =>
    match field.set a datum with
    | .ok a => setItems fields rest a
    | .error e => .error e
  | _, _, a => .ok a

/-- Reads a group: a table by name, an array by position. A date or time has no field by a name that
means something. -/
def readGroup {α : Type} (name : String) (fields : List (Field α)) (default : α) :
    Datum → Except Mismatch α
  | .table entries => setEntries fields entries default
  | .array items => setItems fields items default
  | .moment => .ok default
  | datum => .error ⟨datum, .group name⟩

end Field

def readBoolean : Datum → Except Mismatch Bool
  | .boolean b => .ok b
  | datum => .error ⟨datum, .boolean⟩

def readString : Datum → Except Mismatch String
  | .string s => .ok s
  | datum => .error ⟨datum, .string⟩

def LoggingSettings.fields : List (Field LoggingSettings) :=
  [.reading "level" readString fun s level => { s with level },
    .reading "file" readString fun s file => { s with file := some file },
    .reading "json" readBoolean fun s json => { s with json },
    .reading "spans" readBoolean fun s spans => { s with spans }]

def NativeSettings.fields : List (Field NativeSettings) :=
  [.reading "track_stats" readBoolean fun s trackStatistics => { s with trackStatistics },
    .reading "catch_panics" readBoolean fun s catchPanics => { s with catchPanics }]

def Settings.fields : List (Field Settings) :=
  [.reading "logging" (Field.readGroup "LoggingConfig" LoggingSettings.fields {})
      fun s logging => { s with logging },
    .reading "interop" (Field.readGroup "InteropConfig" NativeSettings.fields {})
      fun s calls => { s with calls }]

inductive ParseError where
  | malformed
  | mismatch (m : Mismatch)

namespace Settings

def ofEntries (entries : List (String × Datum)) : Except Mismatch Settings :=
  Field.setEntries fields entries {}

def parse (text : String) : Except ParseError Settings :=
  match Document.read? text with
  | none => .error .malformed
  | some entries =>
    match ofEntries entries with
    | .ok s => .ok s
    | .error m => .error (.mismatch m)

end Settings

end HostBridge
