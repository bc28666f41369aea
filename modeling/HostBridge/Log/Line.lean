import HostBridge.Log.Filter
import HostBridge.Text.Escaped

/-! # Lines of the log

A record is shown with the spans that are open around it. The console shows it as a line of text or
as an object, the log file always as a line. A line begins with its level in five places.
-/
namespace HostBridge

/-- A record with the spans around it, given by their methods, the outermost first. -/
structure Entry where
  record : Record
  spans : List String
  /-- The record tells of the innermost span's closing. -/
  closing : Bool
deriving DecidableEq, Repr

namespace FieldValue

def written : FieldValue → String
  | .text s => Text.escaped s
  | .bare s => s
  | .number n => toString n
  | .elapsed => "T"

end FieldValue

namespace Record

def paddedLevel (r : Record) : String :=
  String.ofList (List.replicate (5 - r.level.word.length) ' ') ++ r.level.word

def fieldText (fields : List (String × FieldValue)) : String :=
  String.join (fields.map fun (name, value) => " " ++ name ++ "=" ++ value.written)

def text (r : Record) : String := r.target ++ ": " ++ r.message ++ fieldText r.fields

end Record

namespace Entry

def spanText (e : Entry) (detail : String → String) : String :=
  if e.spans.isEmpty then ""
  else ":".intercalate (e.spans.map fun method => spanName ++ detail method) ++ ": "

/-- The line in the log file: each span with its method. -/
def fileLine (e : Entry) : String :=
  e.record.paddedLevel ++ " " ++
    e.spanText (fun method => "\x7bmethod=" ++ method ++ "\x7d") ++ e.record.text

/-- The line on the console: the methods of the spans stand at the end. -/
def consoleLine (e : Entry) : String :=
  e.record.paddedLevel ++ " " ++ e.spanText (fun _ => "") ++ e.record.text ++
    Record.fieldText (e.spans.map fun method => ("method", .bare method))

/-- The spans that an object lists: a span that closes is not among them. -/
def listedSpans (e : Entry) : List String := if e.closing then e.spans.dropLast else e.spans

end Entry

inductive ConsoleOutput where
  | line (text : String)
  | object (entry : Entry)
deriving DecidableEq, Repr

def spanOpened : Record := ⟨spanLevel, spanTarget, "enter", []⟩

def spanClosed : Record :=
  ⟨spanLevel, spanTarget, "close", [("time.busy", .elapsed), ("time.idle", .elapsed)]⟩

/-- What the log is given of the events from some point on. Spans that the filter does not show are
as if they were not there. -/
def entries (filter : Filter) (showSpans : Bool) : List String → List Event → List Entry
  | _, [] => []
  | spans, .entered method :: rest =>
    if filter.shows spanTarget spanLevel then
      let spans := spans ++ [method]
      let shown := entries filter showSpans spans rest
      if showSpans then ⟨spanOpened, spans, false⟩ :: shown else shown
    else entries filter showSpans spans rest
  | spans, .exited :: rest =>
    if filter.shows spanTarget spanLevel then
      let shown := entries filter showSpans spans.dropLast rest
      if showSpans then ⟨spanClosed, spans, true⟩ :: shown else shown
    else entries filter showSpans spans rest
  | spans, event :: rest =>
    match event.record? with
    | some record =>
      if filter.shows record.target record.level then
        ⟨record, spans, false⟩ :: entries filter showSpans spans rest
      else entries filter showSpans spans rest
    | none => entries filter showSpans spans rest

end HostBridge
