import HostBridge.Config.Load
import HostBridge.Proofs.WrittenDocument
import HostBridge.Proofs.WrittenFile

/-! # Settings are read back from their document

The document of settings holds a line for each setting in the order of its group, and none for a log
file that is not set. Reading gives the data of these lines, and the settings are made from the data
alone: what has no line keeps its default, and the default of the log file is that there is none.
-/
namespace HostBridge

open Document (Datum Line headerText linesText writeText readText readDatum)

/-! ## Lines of settings -/

namespace Document

def Line.string (name s : String) : Line := ⟨name, writeText s, .string s⟩

def Line.boolean (name : String) (b : Bool) : Line := ⟨name, Text.truthWord b, .boolean b⟩

theorem exists_writeText_eq_cons (s : String) :
    ∃ q rest, (writeText s).toList = q :: rest ∧ (q = '"' ∨ q = '\'') := by
  have h := TextForm.suits_choose s.toList
  refine ⟨(TextForm.choose s.toList).quote, ?_⟩
  have hdelimiter : ∃ rest, (TextForm.choose s.toList).delimiter =
      (TextForm.choose s.toList).quote :: rest := by
    cases hm : (TextForm.choose s.toList).multiline <;>
      simp [TextForm.delimiter, hm, List.replicate_succ]
  obtain ⟨rest, hrest⟩ := hdelimiter
  refine ⟨_, by rw [writeText, String.toList_ofList, TextForm.write, hrest]; rfl, ?_⟩
  exact h.proper.imp And.left And.left

theorem Line.string_sound {name : String} (hn : BareName name) (s : String) :
    (Line.string name s).Sound := by
  obtain ⟨q, rest, he, hq⟩ := exists_writeText_eq_cons s
  refine ⟨hn, fun tail => ?_, fun c hc => ?_, return_not_mem_writeText s⟩
  · have hread := readText_writeText s tail
    change readDatumWithin nestingLimit ((writeText s).toList ++ '\n' :: tail) = _
    have hne : ∀ x, x ≠ '"' → x ≠ '\'' → ∀ cs, (writeText s).toList ++ '\n' :: tail ≠ x :: cs := by
      rintro x h1 h2 cs heq
      rw [he, List.cons_append] at heq
      rcases hq with rfl | rfl
      · exact h1 (List.cons.inj heq).1.symm
      · exact h2 (List.cons.inj heq).1.symm
    rw [readDatumWithin.eq_5 _ _ (fun _ => hne 't' (by decide) (by decide) _)
      (fun _ => hne 'f' (by decide) (by decide) _)
      (fun _ _ heq _ => hne '[' (by decide) (by decide) _ heq)
      (fun _ _ heq _ => hne '\x7b' (by decide) (by decide) _ heq), hread]
    rfl
  · rw [Line.string, he] at hc
    cases hc
    rcases hq with rfl | rfl <;> decide

theorem Line.boolean_sound {name : String} (hn : BareName name) (b : Bool) :
    (Line.boolean name b).Sound := by
  have htrue : (Text.truthWord true).toList = ['t', 'r', 'u', 'e'] := by decide
  have hfalse : (Text.truthWord false).toList = ['f', 'a', 'l', 's', 'e'] := by decide
  cases b with
  | true =>
    refine ⟨hn, fun tail => ?_, fun c hc => ?_, ?_⟩
    · simp only [Line.boolean, htrue]; rfl
    · simp only [Line.boolean, htrue] at hc; cases hc; decide
    · simp only [Line.boolean, htrue]; decide
  | false =>
    refine ⟨hn, fun tail => ?_, fun c hc => ?_, ?_⟩
    · simp only [Line.boolean, hfalse]; rfl
    · simp only [Line.boolean, hfalse] at hc; cases hc; decide
    · simp only [Line.boolean, hfalse]; decide

end Document

def LoggingSettings.written (s : LoggingSettings) : List Line :=
  .string "level" s.level :: (s.file.map (.string "file")).toList ++
    [.boolean "json" s.json, .boolean "spans" s.spans]

def NativeSettings.written (s : NativeSettings) : List Line :=
  [.boolean "track_stats" s.trackStatistics, .boolean "catch_panics" s.catchPanics]

/-- What the document of settings says. -/
def Settings.data (s : Settings) : List (String × Datum) :=
  [("logging", .table (s.logging.written.map Line.entry)),
    ("interop", .table (s.calls.written.map Line.entry))]

theorem bareName_of_all {name : String} (h : name.toList.all Document.isBare = true)
    (hne : name ≠ "") : Document.BareName name :=
  ⟨by simpa using hne, List.all_eq_true.mp h⟩

theorem LoggingSettings.sound_of_mem_written {s : LoggingSettings} {l : Line}
    (h : l ∈ s.written) : l.Sound := by
  simp only [written, List.cons_append, List.mem_cons, List.mem_append, Option.mem_toList,
    Option.map_eq_some_iff, List.not_mem_nil, or_false] at h
  obtain rfl | ⟨file, -, rfl⟩ | rfl | rfl := h
  · exact Line.string_sound (bareName_of_all (by decide) (by decide)) _
  · exact Line.string_sound (bareName_of_all (by decide) (by decide)) _
  · exact Line.boolean_sound (bareName_of_all (by decide) (by decide)) _
  · exact Line.boolean_sound (bareName_of_all (by decide) (by decide)) _

theorem NativeSettings.sound_of_mem_written {s : NativeSettings} {l : Line}
    (h : l ∈ s.written) : l.Sound := by
  simp only [written, List.mem_cons, List.not_mem_nil, or_false] at h
  obtain rfl | rfl := h
  · exact Line.boolean_sound (bareName_of_all (by decide) (by decide)) _
  · exact Line.boolean_sound (bareName_of_all (by decide) (by decide)) _

theorem Settings.toList_document (s : Settings) :
    s.document.toList = headerText "logging" ++ (linesText s.logging.written ++
      '\n' :: (headerText "interop" ++ (linesText s.calls.written ++ []))) := by
  cases hf : s.logging.file <;>
    simp [document, LoggingSettings.lines, NativeSettings.lines, headerText, linesText,
      LoggingSettings.written, NativeSettings.written, hf, Line.text, Line.string, Line.boolean]

/-! ## Reading the document -/

namespace Document

theorem uniformLines_of_not_mem {cs : List Char} (h : '\r' ∉ cs) : uniformLines cs = cs := by
  induction cs with
  | nil => rfl
  | cons c rest ih =>
    simp only [List.mem_cons, not_or] at h
    rw [uniformLines.eq_2 _ _ fun _ hc _ => h.1 hc.symm, ih h.2]

theorem finishEntries_map_node (lines : List Line) :
    finishEntries (lines.map Line.node) = lines.map Line.entry := by
  induction lines with
  | nil => rfl
  | cons l rest ih => rw [List.map_cons, finishEntries, ih]; rfl

end Document

namespace Settings

theorem bareName_logging : Document.BareName "logging" := bareName_of_all (by decide) (by decide)

theorem bareName_interop : Document.BareName "interop" := bareName_of_all (by decide) (by decide)

theorem return_not_mem_document (s : Settings) : '\r' ∉ s.document.toList := by
  have hlogging : '\r' ∉ Document.linesText s.logging.written :=
    Document.return_not_mem_linesText fun _ => LoggingSettings.sound_of_mem_written
  have hcalls : '\r' ∉ Document.linesText s.calls.written :=
    Document.return_not_mem_linesText fun _ => NativeSettings.sound_of_mem_written
  rw [s.toList_document]
  simp [hlogging, hcalls, Document.return_not_mem_headerText bareName_logging,
    Document.return_not_mem_headerText bareName_interop]

theorem nodup_names_logging (s : LoggingSettings) : (s.written.map Line.name).Nodup := by
  cases hf : s.file <;> simp [LoggingSettings.written, hf, Line.string, Line.boolean]

theorem nodup_names_calls (s : NativeSettings) : (s.written.map Line.name).Nodup := by
  simp [NativeSettings.written, Line.boolean]

/-- The draft that the reader has made at the end of the document. -/
def draft (s : Settings) : Document.Draft :=
  .under [("logging", .table .header (s.logging.written.map Line.node))] "interop"
    (s.calls.written.map Line.node)

theorem readLines_document (s : Settings) (n : Nat) :
    Document.Draft.empty.readLines
        (n + 1 + s.calls.written.length + 1 + 1 + s.logging.written.length + 1)
        s.document.toList = some s.draft := by
  rw [s.toList_document, Document.readLines_table bareName_logging (by simp [Document.Draft.empty])
    (fun _ => LoggingSettings.sound_of_mem_written) (nodup_names_logging s.logging),
    Document.readLines_newline, Document.readLines_table bareName_interop
      (by simp [Document.Draft.under, Document.Draft.empty])
      (fun _ => NativeSettings.sound_of_mem_written) (nodup_names_calls s.calls)]
  rfl

theorem finish_draft (s : Settings) : s.draft.finish = s.data := by
  have hlogging := Document.finishEntries_map_node s.logging.written
  have hcalls := Document.finishEntries_map_node s.calls.written
  simp [Document.Draft.finish, draft, Document.Draft.under, Document.finishEntries,
    Document.finishEntry, Document.Node.datum, hlogging, hcalls, data]

theorem read?_document (s : Settings) : Document.read? s.document = some s.data := by
  have hmark : Document.withoutMark s.document.toList = s.document.toList := by
    rw [s.toList_document]
    rfl
  have hbound : ∃ n, s.document.toList.length + 1 =
      n + 1 + s.calls.written.length + 1 + 1 + s.logging.written.length + 1 := by
    have hlong : 9 ≤ s.document.toList.length := by
      rw [s.toList_document]
      simp [headerText]
    have hcalls : s.calls.written.length = 2 := rfl
    have hlogging : s.logging.written.length ≤ 4 := by
      cases hf : s.logging.file <;> simp [LoggingSettings.written, hf]
    exact ⟨s.document.toList.length + 1 -
      (1 + s.calls.written.length + 1 + 1 + s.logging.written.length + 1), by omega⟩
  obtain ⟨n, hn⟩ := hbound
  simp only [Document.read?, hmark, Document.uniformLines_of_not_mem s.return_not_mem_document, hn,
    s.readLines_document, Option.map_some, s.finish_draft]

/-! ## From the data to the settings -/

theorem ofEntries_data (s : Settings) : ofEntries s.data = .ok s := by
  rcases s with ⟨⟨level, file, json, spans⟩, calls⟩
  cases file <;> rfl

theorem parse_document (s : Settings) : parse s.document = .ok s := by
  simp only [parse, s.read?_document, s.ofEntries_data]

/-! ## Through a file -/

theorem load_of_save {s : Settings} {root saved : Files.Node} {path : List String}
    (h : s.save root path = .ok saved) : load saved path = .ok s := by
  unfold save at h
  split at h
  · cases h
  · rename_i written hw
    cases h
    simp only [load, ofFile, Files.Node.read_of_write hw, s.parse_document]

end Settings

/-- Settings are read back from their document as they were, whatever texts they hold: the reader
finds the data of the lines, in which an unset log file does not occur, and these give the settings.
So a file that settings were saved to loads as these settings. -/
theorem settings_round_trip (s : Settings) :
    Document.read? s.document = some s.data ∧
      ("file" ∈ s.logging.written.map Line.name ↔ s.logging.file ≠ none) ∧
      Settings.parse s.document = .ok s ∧
      ∀ root path saved, s.save root path = .ok saved → Settings.load saved path = .ok s := by
  refine ⟨s.read?_document, ?_, s.parse_document, fun root path saved h => Settings.load_of_save h⟩
  cases hf : s.logging.file <;> simp [LoggingSettings.written, hf, Line.string, Line.boolean]

/-! Texts with every kind of quote, a control character and a line end, saved on a way that leads back
out of a directory. -/

def trickySettings : Settings where
  logging := { level := "'''\"\"\"\\\r\n\x00", file := some "" }
  calls := { catchPanics := false }

def oneDirectory : Files.Node := .directory [("a", .emptyDirectory)]

theorem settings_round_trip_tricky :
    ∃ saved, trickySettings.save oneDirectory ["a", "..", "c.toml"] = .ok saved ∧
      Settings.load saved ["a", "..", "c.toml"] = .ok trickySettings := by
  have hsave : trickySettings.save oneDirectory ["a", "..", "c.toml"] =
      .ok (oneDirectory.put ["c.toml"] (.file trickySettings.document.toUTF8)) := by
    rfl
  exact ⟨_, hsave, (settings_round_trip trickySettings).2.2.2 _ _ _ hsave⟩

end HostBridge
