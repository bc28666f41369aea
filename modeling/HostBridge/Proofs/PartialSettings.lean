import HostBridge.Config.Decode
import HostBridge.Proofs.DistinctKeys
import Mathlib

/-! # Settings from any document

A document may say any part of the settings, and anything else. Each setting comes from its own entry
alone: it is what stands there, or its default when nothing does. The entries are looked at one by one
in the order of the document; as no key occurs twice, the order does not matter.
-/
namespace HostBridge

open Document (Datum)

theorem lookup_eq_some_iff_mem {α : Type} {entries : List (String × α)}
    (hk : (entries.map Prod.fst).Nodup) {name : String} {a : α} :
    entries.lookup name = some a ↔ (name, a) ∈ entries := by
  induction entries with
  | nil => simp
  | cons entry rest ih =>
    obtain ⟨key, b⟩ := entry
    obtain ⟨hfresh, hrest⟩ := List.nodup_cons.mp hk
    by_cases hn : name = key
    · subst hn
      have hnot : (name, a) ∉ rest := fun hmem => hfresh (List.mem_map.mpr ⟨_, hmem, rfl⟩)
      simp [hnot, eq_comm]
    · have hne : (name == key) = false := by simpa using hn
      rw [List.lookup_cons, hne, ih hrest]
      simp [hn]

/-- What a setting is, from the datum that stands in its place: its default if there is none, and
otherwise what the datum means. -/
inductive Given {β : Type} (means : Datum → β → Prop) (default : β) : Option Datum → β → Prop where
  | absent : Given means default none default
  | present {d : Datum} {x : β} (h : means d x) : Given means default (some d) x

namespace Given
variable {β : Type} {means : Datum → β → Prop} {default x y : β} {found : Option Datum}

theorem eq_of_absent (h : Given means default none x) : x = default := by
  cases h
  rfl

theorem means_of_found (h : Given means default found x) {d : Datum} (hd : found = some d) :
    means d x := by
  subst hd
  cases h
  assumption

theorem unique (hx : Given means default found x) (hy : Given means default found y)
    (hm : ∀ d x y, means d x → means d y → x = y) : x = y := by
  cases hx with
  | absent => exact hy.eq_of_absent.symm
  | present h => exact hm _ _ _ h (hy.means_of_found rfl)

end Given

/-! ## Fields of a group -/

namespace Field
variable {α β : Type} {fields : List (Field α)}

/-- The field can be set from the datum, whatever else is set. -/
def Accepts (field : Field α) (d : Datum) : Prop := ∀ a, ∃ b, field.set a d = .ok b

section
variable {name : String} {read : Datum → Except Mismatch β} {put : α → β → α}

@[simp] theorem reading_name : (reading name read put).name = name := rfl

theorem set_reading {a b : α} {d : Datum} :
    (reading name read put).set a d = .ok b ↔ ∃ x, read d = .ok x ∧ put a x = b := by
  cases hr : read d <;> simp [reading, Except.map, hr]

theorem forall_set_reading {p : α → Datum → α → Prop} :
    (∀ a d b, (reading name read put).set a d = .ok b → p a d b) ↔
      ∀ a d x, read d = .ok x → p a d (put a x) := by
  simp only [set_reading]
  constructor
  · intro h a d x hx
    exact h a d _ ⟨x, hx, rfl⟩
  · rintro h a d _ ⟨x, hx, rfl⟩
    exact h a d x hx

theorem accepts_reading (a : α) {d : Datum} :
    (reading name read put).Accepts d ↔ ∃ x, read d = .ok x := by
  simp only [Accepts, set_reading]
  constructor
  · intro h
    obtain ⟨-, x, hx, -⟩ := h a
    exact ⟨x, hx⟩
  · rintro ⟨x, hx⟩ a
    exact ⟨put a x, x, hx, rfl⟩

theorem accepts_of_set_reading (a : α) (d : Datum) (b : α)
    (hs : (reading name read put).set a d = .ok b) : (reading name read put).Accepts d := by
  obtain ⟨x, hx, -⟩ := set_reading.mp hs
  exact (accepts_reading a).mpr ⟨x, hx⟩

end

/-! ## Entries one by one -/

theorem setNamed_cases (fields : List (Field α)) (a : α) (entry : String × Datum) :
    (∃ field ∈ fields, field.name = entry.1 ∧
      setNamed fields a entry = field.set a entry.2) ∨
    (∀ field ∈ fields, field.name ≠ entry.1) ∧ setNamed fields a entry = .ok a := by
  unfold setNamed
  cases hf : fields.find? (·.name = entry.1) with
  | some field =>
    exact .inl ⟨field, List.mem_of_find?_eq_some hf, by simpa using List.find?_some hf, rfl⟩
  | none => exact .inr ⟨by simpa using hf, rfl⟩

/-- The fields have names of their own, and what one of them can be set from does not depend on what
else is set. -/
structure Regular (fields : List (Field α)) : Prop where
  names : (fields.map Field.name).Nodup
  accepts : ∀ field ∈ fields, ∀ a d b, field.set a d = .ok b → field.Accepts d

theorem setNamed_ok_iff (h : Regular fields) (a : α) (entry : String × Datum) :
    (∃ b, setNamed fields a entry = .ok b) ↔
      ∀ field ∈ fields, field.name = entry.1 → field.Accepts entry.2 := by
  rcases setNamed_cases fields a entry with ⟨field, hmem, hname, hs⟩ | ⟨hnone, hs⟩
  · rw [hs]
    constructor
    · rintro ⟨b, hb⟩ other hother hn
      have heq : other = field :=
        List.inj_on_of_nodup_map h.names hother hmem (hn.trans hname.symm)
      rw [heq]
      exact h.accepts field hmem a entry.2 b hb
    · intro hall
      exact hall field hmem hname a
  · rw [hs]
    exact ⟨fun _ field hmem hn => absurd hn (hnone field hmem), fun _ => ⟨a, rfl⟩⟩

theorem setEntries_ok_iff (h : Regular fields) (entries : List (String × Datum)) (a : α) :
    (∃ b, setEntries fields entries a = .ok b) ↔
      ∀ entry ∈ entries, ∀ field ∈ fields, field.name = entry.1 → field.Accepts entry.2 := by
  induction entries generalizing a with
  | nil => simp [setEntries]
  | cons entry rest ih =>
    rw [List.forall_mem_cons, ← setNamed_ok_iff h a entry, setEntries]
    cases hs : setNamed fields a entry with
    | ok b => simpa using ih b
    | error e => simp

/-- A table can be read if every field that occurs in it accepts what stands there. -/
theorem setEntries_accepted_iff (h : Regular fields) {entries : List (String × Datum)}
    (hk : (entries.map Prod.fst).Nodup) (a : α) :
    (∃ b, setEntries fields entries a = .ok b) ↔
      ∀ field ∈ fields, ∀ d, entries.lookup field.name = some d → field.Accepts d := by
  rw [setEntries_ok_iff h]
  constructor
  · intro hall field hf d hl
    exact hall (field.name, d) ((lookup_eq_some_iff_mem hk).mp hl) field hf rfl
  · rintro hall ⟨name, d⟩ he field hf rfl
    exact hall field hf d ((lookup_eq_some_iff_mem hk).mpr he)

/-- What is looked at is set by the field of this name, and by no other one. -/
structure Sets (fields : List (Field α)) (name : String) (look : α → β)
    (means : Datum → β → Prop) : Prop where
  named : name ∈ fields.map Field.name
  own : ∀ field ∈ fields, field.name = name →
    ∀ a d b, field.set a d = .ok b → means d (look b)
  others : ∀ field ∈ fields, field.name ≠ name →
    ∀ a d b, field.set a d = .ok b → look b = look a

theorem Sets.own_setNamed {name : String} {look : α → β} {means : Datum → β → Prop}
    (h : Sets fields name look means) {a b : α} {d : Datum}
    (hs : setNamed fields a (name, d) = .ok b) : means d (look b) := by
  rcases setNamed_cases fields a (name, d) with ⟨field, hmem, hname, hset⟩ | ⟨hnone, -⟩
  · exact h.own field hmem hname a d b (hset.symm.trans hs)
  · obtain ⟨field, hmem, hname⟩ := List.mem_map.mp h.named
    exact absurd hname (hnone field hmem)

theorem Sets.others_setNamed {name key : String} {look : α → β} {means : Datum → β → Prop}
    (h : Sets fields name look means) (hne : key ≠ name) {a b : α} {d : Datum}
    (hs : setNamed fields a (key, d) = .ok b) : look b = look a := by
  rcases setNamed_cases fields a (key, d) with ⟨field, hmem, hname, hset⟩ | ⟨-, hset⟩
  · exact h.others field hmem (hname ▸ hne) a d b (hset.symm.trans hs)
  · cases hset.symm.trans hs
    rfl

theorem Sets.given {name : String} {look : α → β} {means : Datum → β → Prop}
    (h : Sets fields name look means) {entries : List (String × Datum)}
    (hk : (entries.map Prod.fst).Nodup) {a b : α} (hs : setEntries fields entries a = .ok b) :
    Given means (look a) (entries.lookup name) (look b) := by
  -- The entry of this name decides, as no later one has the name; all others leave it as it is.
  induction entries generalizing a with
  | nil =>
    cases hs
    exact .absent
  | cons entry rest ih =>
    obtain ⟨key, d⟩ := entry
    obtain ⟨hfresh, hrest⟩ := List.nodup_cons.mp hk
    rw [setEntries] at hs
    cases hset : setNamed fields a (key, d) with
    | error e => rw [hset] at hs; cases hs
    | ok next =>
      rw [hset] at hs
      have hgiven := ih hrest hs
      by_cases hn : name = key
      · subst hn
        have hnone : rest.lookup name = none := by
          refine List.lookup_eq_none_iff.mpr fun e he => bne_iff_ne.mpr ?_
          rintro rfl
          exact hfresh (List.mem_map.mpr ⟨e, he, rfl⟩)
        rw [hnone] at hgiven
        rw [hgiven.eq_of_absent, List.lookup_cons_self]
        exact .present (h.own_setNamed hset)
      · have hne : (name == key) = false := by simpa using hn
        rw [List.lookup_cons, hne, ← h.others_setNamed (Ne.symm hn) hset]
        exact hgiven

end Field

/-! ## Groups -/

/-- What stands under a name in a group, if the group is a table that has the name. -/
def Document.entryAt? (entries : List (String × Datum)) (group name : String) : Option Datum :=
  match entries.lookup group with
  | some (.table inner) => inner.lookup name
  | _ => none

open HostBridge.Field Document

theorem readString_eq_ok_iff {d : Datum} {s : String} : readString d = .ok s ↔ d = .string s := by
  cases d <;> simp [readString]

theorem readBoolean_eq_ok_iff {d : Datum} {b : Bool} :
    readBoolean d = .ok b ↔ d = .boolean b := by
  cases d <;> simp [readBoolean]

section
variable {α β : Type} {entries : List (String × Datum)} {group : String} {fields : List (Field α)}

theorem keys_nodup_of_lookup {inner : List (String × Datum)}
    (hk : (Datum.table entries).Keyed) (hl : entries.lookup group = some (.table inner)) :
    (inner.map Prod.fst).Nodup :=
  (hk.part ((lookup_eq_some_iff_mem hk.keys).mp hl)).keys

/-- What a setting in a group is, comes from its own entry. -/
theorem Given.within {label name : String} {look : α → β} {means : Datum → β → Prop}
    {default x : α} (hk : (Datum.table entries).Keyed)
    (ht : ∀ d, entries.lookup group = some d → ∃ inner, d = .table inner)
    (hset : Sets fields name look means)
    (h : Given (fun d x => readGroup label fields default d = .ok x) default
      (entries.lookup group) x) :
    Given means (look default) (entryAt? entries group name) (look x) := by
  unfold entryAt?
  cases hl : entries.lookup group with
  | none =>
    rw [hl] at h
    rw [h.eq_of_absent]
    exact .absent
  | some d =>
    obtain ⟨inner, rfl⟩ := ht d hl
    rw [hl] at h
    cases h with
    | present h => exact hset.given (keys_nodup_of_lookup hk hl) h

theorem readGroup_accepted_iff (label : String) (default : α) (hr : Regular fields)
    (hk : (Datum.table entries).Keyed)
    (ht : ∀ d, entries.lookup group = some d → ∃ inner, d = .table inner) :
    (∀ d, entries.lookup group = some d → ∃ x, readGroup label fields default d = .ok x) ↔
      ∀ field ∈ fields, ∀ d, entryAt? entries group field.name = some d → field.Accepts d := by
  unfold entryAt?
  cases hl : entries.lookup group with
  | none => simp
  | some d =>
    obtain ⟨inner, rfl⟩ := ht d hl
    rw [← setEntries_accepted_iff hr (keys_nodup_of_lookup hk hl) default]
    simp [readGroup]

end

/-! ## The fields there are -/

theorem LoggingSettings.regular_fields : Regular LoggingSettings.fields where
  names := by decide
  accepts := by simpa [LoggingSettings.fields] using
    ⟨accepts_of_set_reading, accepts_of_set_reading, accepts_of_set_reading,
      accepts_of_set_reading⟩

theorem NativeSettings.regular_fields : Regular NativeSettings.fields where
  names := by decide
  accepts := by simpa [NativeSettings.fields] using ⟨accepts_of_set_reading, accepts_of_set_reading⟩

theorem Settings.regular_fields : Regular Settings.fields where
  names := by decide
  accepts := by simpa [Settings.fields] using ⟨accepts_of_set_reading, accepts_of_set_reading⟩

namespace LoggingSettings

theorem sets_level : Sets fields "level" level (fun d x => d = .string x) := by
  constructor <;> simp [fields, forall_set_reading, readString_eq_ok_iff]

theorem sets_file : Sets fields "file" file (fun d x => ∃ s, d = .string s ∧ x = some s) := by
  constructor <;> simp [fields, forall_set_reading, readString_eq_ok_iff]

theorem sets_json : Sets fields "json" json (fun d x => d = .boolean x) := by
  constructor <;> simp [fields, forall_set_reading, readBoolean_eq_ok_iff]

theorem sets_spans : Sets fields "spans" spans (fun d x => d = .boolean x) := by
  constructor <;> simp [fields, forall_set_reading, readBoolean_eq_ok_iff]

end LoggingSettings

namespace NativeSettings

theorem sets_trackStatistics :
    Sets fields "track_stats" trackStatistics (fun d x => d = .boolean x) := by
  constructor <;> simp [fields, forall_set_reading, readBoolean_eq_ok_iff]

theorem sets_catchPanics : Sets fields "catch_panics" catchPanics (fun d x => d = .boolean x) := by
  constructor <;> simp [fields, forall_set_reading, readBoolean_eq_ok_iff]

end NativeSettings

namespace Settings

theorem sets_logging : Sets fields "logging" logging
    (fun d x => readGroup "LoggingConfig" LoggingSettings.fields {} d = .ok x) := by
  constructor <;> simp [fields, forall_set_reading]

theorem sets_calls : Sets fields "interop" calls
    (fun d x => readGroup "InteropConfig" NativeSettings.fields {} d = .ok x) := by
  constructor <;> simp [fields, forall_set_reading]

/-- Each group is a table, if it is there. -/
def Grouped (entries : List (String × Datum)) : Prop :=
  ∀ group ∈ ["logging", "interop"], ∀ d, entries.lookup group = some d →
    ∃ inner, d = .table inner

/-- Each entry that means something has the type it must have, if it is there. -/
structure WellTyped (entries : List (String × Datum)) : Prop where
  level : ∀ d, entryAt? entries "logging" "level" = some d → ∃ s, d = .string s
  file : ∀ d, entryAt? entries "logging" "file" = some d → ∃ s, d = .string s
  json : ∀ d, entryAt? entries "logging" "json" = some d → ∃ b, d = .boolean b
  spans : ∀ d, entryAt? entries "logging" "spans" = some d → ∃ b, d = .boolean b
  trackStatistics : ∀ d, entryAt? entries "interop" "track_stats" = some d → ∃ b, d = .boolean b
  catchPanics : ∀ d, entryAt? entries "interop" "catch_panics" = some d → ∃ b, d = .boolean b

/-- Each setting is what its own entry is, or its default if there is no such entry. -/
structure Reflects (entries : List (String × Datum)) (s : Settings) : Prop where
  level : Given (fun d x => d = .string x) "info"
    (entryAt? entries "logging" "level") s.logging.level
  file : Given (fun d x => ∃ s, d = .string s ∧ x = some s) none
    (entryAt? entries "logging" "file") s.logging.file
  json : Given (fun d x => d = .boolean x) false
    (entryAt? entries "logging" "json") s.logging.json
  spans : Given (fun d x => d = .boolean x) false
    (entryAt? entries "logging" "spans") s.logging.spans
  trackStatistics : Given (fun d x => d = .boolean x) true
    (entryAt? entries "interop" "track_stats") s.calls.trackStatistics
  catchPanics : Given (fun d x => d = .boolean x) true
    (entryAt? entries "interop" "catch_panics") s.calls.catchPanics

variable {entries : List (String × Datum)}

theorem reflects_of_ofEntries (hk : (Datum.table entries).Keyed) (hg : Grouped entries)
    {s : Settings} (h : ofEntries entries = .ok s) : Reflects entries s := by
  have hlogging := sets_logging.given hk.keys h
  have hcalls := sets_calls.given hk.keys h
  have hl := hg "logging" (by simp)
  have hc := hg "interop" (by simp)
  exact
    { level := hlogging.within hk hl LoggingSettings.sets_level
      file := hlogging.within hk hl LoggingSettings.sets_file
      json := hlogging.within hk hl LoggingSettings.sets_json
      spans := hlogging.within hk hl LoggingSettings.sets_spans
      trackStatistics := hcalls.within hk hc NativeSettings.sets_trackStatistics
      catchPanics := hcalls.within hk hc NativeSettings.sets_catchPanics }

theorem ofEntries_accepted_iff (hk : (Datum.table entries).Keyed) (hg : Grouped entries) :
    (∃ s, ofEntries entries = .ok s) ↔ WellTyped entries := by
  have hlogging := readGroup_accepted_iff "LoggingConfig" {} LoggingSettings.regular_fields hk
    (hg "logging" (by simp))
  have hcalls := readGroup_accepted_iff "InteropConfig" {} NativeSettings.regular_fields hk
    (hg "interop" (by simp))
  rw [ofEntries, setEntries_accepted_iff regular_fields hk.keys {}]
  simp only [fields, List.forall_mem_cons, List.not_mem_nil, false_implies, implies_true, and_true,
    reading_name, accepts_reading ({} : Settings), hlogging, hcalls]
  simp only [LoggingSettings.fields, NativeSettings.fields, List.forall_mem_cons,
    List.not_mem_nil, false_implies, implies_true, and_true, reading_name,
    accepts_reading ({} : LoggingSettings), accepts_reading ({} : NativeSettings),
    readString_eq_ok_iff, readBoolean_eq_ok_iff]
  constructor
  · rintro ⟨⟨level, file, json, spans⟩, trackStatistics, catchPanics⟩
    exact ⟨level, file, json, spans, trackStatistics, catchPanics⟩
  · rintro ⟨level, file, json, spans, trackStatistics, catchPanics⟩
    exact ⟨⟨level, file, json, spans⟩, trackStatistics, catchPanics⟩

theorem Reflects.wellTyped {s : Settings} (h : Reflects entries s) : WellTyped entries where
  level _ hd := ⟨_, h.level.means_of_found hd⟩
  file _ hd := (h.file.means_of_found hd).imp fun _ hs => hs.1
  json _ hd := ⟨_, h.json.means_of_found hd⟩
  spans _ hd := ⟨_, h.spans.means_of_found hd⟩
  trackStatistics _ hd := ⟨_, h.trackStatistics.means_of_found hd⟩
  catchPanics _ hd := ⟨_, h.catchPanics.means_of_found hd⟩

theorem Reflects.unique {s t : Settings} (hs : Reflects entries s) (ht : Reflects entries t) :
    s = t := by
  have hstring : ∀ (d : Datum) x y, d = .string x → d = .string y → x = y := by
    rintro _ x y rfl hy
    exact Datum.string.inj hy
  have hboolean : ∀ (d : Datum) x y, d = .boolean x → d = .boolean y → x = y := by
    rintro _ x y rfl hy
    exact Datum.boolean.inj hy
  have hfile : ∀ (d : Datum) (x y : Option String), (∃ s, d = .string s ∧ x = some s) →
      (∃ s, d = .string s ∧ y = some s) → x = y := by
    rintro d _ _ ⟨s, hs, rfl⟩ ⟨r, hr, rfl⟩
    rw [hstring d s r hs hr]
  have level := hs.level.unique ht.level hstring
  have file := hs.file.unique ht.file hfile
  have json := hs.json.unique ht.json hboolean
  have spans := hs.spans.unique ht.spans hboolean
  have trackStatistics := hs.trackStatistics.unique ht.trackStatistics hboolean
  have catchPanics := hs.catchPanics.unique ht.catchPanics hboolean
  obtain ⟨⟨_, _, _, _⟩, ⟨_, _⟩⟩ := s
  obtain ⟨⟨_, _, _, _⟩, ⟨_, _⟩⟩ := t
  simp_all

theorem parse_eq_ofEntries {text : String} (hread : read? text = some entries) :
    (parse text).toOption = (ofEntries entries).toOption := by
  cases h : ofEntries entries <;> simp [parse, hread, h, Except.toOption]

theorem toOption_eq_some_iff {ε α : Type} {r : Except ε α} {a : α} :
    r.toOption = some a ↔ r = .ok a := by
  cases r <;> simp [Except.toOption]

theorem parse_eq_ok_iff {text : String} (hread : read? text = some entries) {s : Settings} :
    parse text = .ok s ↔ ofEntries entries = .ok s := by
  rw [← toOption_eq_some_iff, parse_eq_ofEntries hread, toOption_eq_some_iff]

theorem ofEntries_eq_ok_iff (hk : (Datum.table entries).Keyed) (hg : Grouped entries)
    {s : Settings} : ofEntries entries = .ok s ↔ Reflects entries s := by
  refine ⟨reflects_of_ofEntries hk hg, fun h => ?_⟩
  obtain ⟨t, ht⟩ := (ofEntries_accepted_iff hk hg).mpr h.wellTyped
  rw [ht, h.unique (reflects_of_ofEntries hk hg ht)]

/-- The entries that settings come from. -/
def places : List (String × String) :=
  [("logging", "level"), ("logging", "file"), ("logging", "json"), ("logging", "spans"),
    ("interop", "track_stats"), ("interop", "catch_panics")]

/-- Both documents have the same at each place that settings come from. -/
def Agree (entries entries' : List (String × Datum)) : Prop :=
  ∀ place ∈ places, entryAt? entries' place.1 place.2 = entryAt? entries place.1 place.2

theorem Agree.symm {entries' : List (String × Datum)} (h : Agree entries entries') :
    Agree entries' entries := fun place hp => (h place hp).symm

theorem Agree.reflects {entries' : List (String × Datum)} (h : Agree entries entries')
    {s : Settings} (hs : Reflects entries s) : Reflects entries' s where
  level := h ("logging", "level") (by simp [places]) ▸ hs.level
  file := h ("logging", "file") (by simp [places]) ▸ hs.file
  json := h ("logging", "json") (by simp [places]) ▸ hs.json
  spans := h ("logging", "spans") (by simp [places]) ▸ hs.spans
  trackStatistics := h ("interop", "track_stats") (by simp [places]) ▸ hs.trackStatistics
  catchPanics := h ("interop", "catch_panics") (by simp [places]) ▸ hs.catchPanics

end Settings

open Settings

/-- A document in which each group is a table or not there is taken as settings if and only if what
stands at the places that mean something has the right types. Each setting is then what stands at its
own place, or its default. Nothing else in the document matters, and neither does its layout. A
document is a text that the reader accepts, within the limits of the reader: arrays and inline tables
nest less than 80 deep, a key has less than 80 parts, an integer fits into 64 bits, and no float in
digits overflows upwards. -/
theorem settings_from_their_own_entries {text : String} {entries : List (String × Datum)}
    (hread : read? text = some entries) (hg : Grouped entries) :
    ((∃ s, Settings.parse text = .ok s) ↔ WellTyped entries) ∧
      (∀ s, Settings.parse text = .ok s ↔ Reflects entries s) ∧
      ∀ text' entries', read? text' = some entries' → Grouped entries' →
        Agree entries entries' →
        (Settings.parse text').toOption = (Settings.parse text).toOption := by
  have hk := keyed_of_read? hread
  refine ⟨?_, fun s => ?_, fun text' entries' hread' hg' hagree => ?_⟩
  · simp only [parse_eq_ok_iff hread]
    exact ofEntries_accepted_iff hk hg
  · rw [parse_eq_ok_iff hread]
    exact ofEntries_eq_ok_iff hk hg
  · rw [parse_eq_ofEntries hread, parse_eq_ofEntries hread']
    ext s
    rw [toOption_eq_some_iff, toOption_eq_some_iff, ofEntries_eq_ok_iff hk hg,
      ofEntries_eq_ok_iff (keyed_of_read? hread') hg']
    exact ⟨hagree.symm.reflects, hagree.reflects⟩

def underHeaders : String :=
  "[logging]\nlevel = \"debug\"\njson = true\n\n[interop]\ncatch_panics = false\n"

def scattered : String :=
  "interop = \x7b other = [1, 2], catch_panics = false \x7d\nlogging.json = true\n" ++
    "title = 'x'\nlogging.level = 'debug'\n"

theorem settings_from_their_own_entries_of_scattered :
    Settings.parse underHeaders =
      .ok { logging := { level := "debug", json := true }, calls := { catchPanics := false } } ∧
    (Settings.parse scattered).toOption = (Settings.parse underHeaders).toOption := by
  have hheaders : read? underHeaders = some
      [("logging", .table [("level", .string "debug"), ("json", .boolean true)]),
        ("interop", .table [("catch_panics", .boolean false)])] := by cbv
  have hscattered : read? scattered = some
      [("interop", .table
          [("other", .array [.integer 1, .integer 2]), ("catch_panics", .boolean false)]),
        ("logging", .table [("json", .boolean true), ("level", .string "debug")]),
        ("title", .string "x")] := by cbv
  obtain ⟨-, hparse, hlayout⟩ :=
    settings_from_their_own_entries hheaders (by simp [Grouped, List.lookup_cons])
  refine ⟨(hparse _).mpr ?_, hlayout _ _ hscattered ?_ ?_⟩
  · exact ⟨.present rfl, .absent, .present rfl, .absent, .absent, .present rfl⟩
  · simp [Grouped, List.lookup_cons]
  · simp [Agree, places, entryAt?, List.lookup_cons]

end HostBridge
