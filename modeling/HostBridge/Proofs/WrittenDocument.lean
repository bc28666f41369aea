import HostBridge.Config.Decode
import HostBridge.Config.Write
import HostBridge.Proofs.WrittenText

/-! # Written documents are read back

A document of settings is a sequence of tables, each a header and lines under it. A line under the
last header adds its datum to the end of that table, a new header opens a table after those that are
there, so the reader finds the data in the order in which they are written.
-/
namespace HostBridge.Document

/-! ## Bare names -/

structure BareName (name : String) : Prop where
  ne_nil : name.toList ≠ []
  isBare : ∀ c ∈ name.toList, isBare c = true

section
variable {name : String} {tail : List Char}

theorem BareName.exists_eq_cons (h : BareName name) :
    ∃ c rest, name.toList = c :: rest ∧ Document.isBare c = true := by
  obtain ⟨c, rest, he⟩ := List.exists_cons_of_ne_nil h.ne_nil
  exact ⟨c, rest, he, h.isBare c (by simp [he])⟩

theorem isBare_ne {c x : Char} (hc : isBare c = true) (hx : isBare x = false) : c ≠ x := by
  rintro rfl
  exact Bool.noConfusion (hc.symm.trans hx)

theorem isBlank_of_isBare {c : Char} (hc : isBare c = true) : isBlank c = false := by
  have hspace := isBare_ne hc (x := ' ') (by decide)
  have htab := isBare_ne hc (x := '\t') (by decide)
  simp [isBlank, hspace, htab]

theorem readKeyPart_bare (h : BareName name) (htail : ∀ c ∈ tail.head?, isBare c = false) :
    readKeyPart (name.toList ++ tail) = some (name, tail) := by
  obtain ⟨c, rest, he, hc⟩ := h.exists_eq_cons
  have htake : (name.toList ++ tail).takeWhile isBare = name.toList := by
    rw [List.takeWhile_append_of_pos h.isBare]
    cases tail with
    | nil => simp
    | cons d _ => simp [htail d rfl]
  have hdrop : (name.toList ++ tail).dropWhile isBare = tail := by
    rw [List.dropWhile_append_of_pos h.isBare]
    cases tail with
    | nil => rfl
    | cons d _ => simp [htail d rfl]
  have hbasic := isBare_ne hc (x := '"') (by decide)
  have hliteral := isBare_ne hc (x := '\'') (by decide)
  rw [he] at htake hdrop ⊢
  rw [List.cons_append] at htake hdrop ⊢
  unfold readKeyPart
  split
  · rename_i heq; exact absurd (List.cons.inj heq).1 hbasic
  · rename_i heq; exact absurd (List.cons.inj heq).1 hliteral
  · have hname : String.ofList (c :: rest) = name := by rw [← he, String.ofList_toList]
    rw [htake, hdrop]
    simp [hname]

theorem readKey_bare (h : BareName name) (htail : ∀ c ∈ tail.head?, isBare c = false)
    (hdot : ∀ rest, skipBlanks tail ≠ '.' :: rest) :
    readKey (name.toList ++ tail) = some (([], name), skipBlanks tail) := by
  obtain ⟨c, rest, he, hc⟩ := h.exists_eq_cons
  have hskip : skipBlanks (name.toList ++ tail) = name.toList ++ tail := by
    rw [he, List.cons_append, skipBlanks, List.dropWhile_cons_of_neg]
    simp [isBlank_of_isBare hc]
  simp only [readKey, keyLimit, readKeyWithin, hskip, readKeyPart_bare h htail]

end

/-! ## Drafts -/

theorem Entries.alter_of_not_mem {key : String} {change : Option Node → Option Node}
    {before : Entries} (h : key ∉ before.map Prod.fst) (entries : Entries) :
    Entries.alter key change (before ++ entries) =
      (Entries.alter key change entries).map (before ++ ·) := by
  induction before with
  | nil => simp
  | cons entry rest ih =>
    simp only [List.map_cons, List.mem_cons, not_or] at h
    rw [List.cons_append, Entries.alter, if_neg (Ne.symm h.1), ih h.2]
    cases Entries.alter key change entries <;> rfl

/-- A draft whose last table is under a header, and open. -/
def Draft.under (before : Entries) (header : String) (entries : Entries) : Draft :=
  ⟨before ++ [(header, .table .header entries)], [header]⟩

theorem Draft.openTable_new {draft : Draft} {header : String}
    (h : header ∉ draft.root.map Prod.fst) :
    draft.openTable [] header = some (Draft.under draft.root header []) := by
  have hl : draft.root.lookup header = none := by
    rw [List.lookup_eq_none_iff]
    intro entry he
    simpa using fun heq => h (List.mem_map.mpr ⟨entry, he, heq.symm⟩)
  simp [Draft.openTable, Entries.within, Entries.openTable, hl, Draft.under]

theorem Draft.assign_new {before entries : Entries} {header name : String}
    (hheader : header ∉ before.map Prod.fst) (hname : name ∉ entries.map Prod.fst)
    (datum : Datum) :
    (Draft.under before header entries).assign [] name datum =
      some (Draft.under before header (entries ++ [(name, .leaf datum)])) := by
  have hnew : Entries.assignNew name datum entries = some (entries ++ [(name, .leaf datum)]) := by
    have h : Entries.assignNew name datum (entries ++ []) = some (entries ++ [(name, .leaf datum)]) :=
      Entries.alter_of_not_mem hname []
    rwa [List.append_nil] at h
  simp only [Draft.assign, Draft.under, Entries.within, Entries.assign]
  rw [Entries.alter_of_not_mem hheader]
  simp [Entries.alter, hnew]

/-! ## Lines -/

/-- A name, what is written for its datum, and the datum. -/
structure Line where
  name : String
  written : String
  datum : Datum

namespace Line

def text (l : Line) : List Char := (settingLine l.name l.written).toList

def node (l : Line) : String × Node := (l.name, .leaf l.datum)

def entry (l : Line) : String × Datum := (l.name, l.datum)

/-- The reader finds the datum in what is written, up to the end of the line. -/
structure Sound (l : Line) : Prop where
  name : BareName l.name
  read : ∀ tail, readDatum (l.written.toList ++ '\n' :: tail) = some (l.datum, '\n' :: tail)
  first : ∀ c ∈ l.written.toList.head?, isBlank c = false
  noReturn : '\r' ∉ l.written.toList

end Line

theorem afterLine?_newline (tail : List Char) : afterLine? ('\n' :: tail) = some tail := rfl

theorem readLines_newline (n : Nat) (draft : Draft) (tail : List Char) :
    draft.readLines (n + 1) ('\n' :: tail) = draft.readLines n tail := rfl

theorem readPair_line {l : Line} (h : l.Sound) (tail : List Char) :
    readPair readDatum (l.text ++ tail) = some ((([], l.name), l.datum), '\n' :: tail) := by
  have htext : l.text ++ tail =
      l.name.toList ++ ' ' :: '=' :: ' ' :: (l.written.toList ++ '\n' :: tail) := by
    simp [Line.text, settingLine]
  have hkey : readKey (l.text ++ tail) =
      some (([], l.name), '=' :: ' ' :: (l.written.toList ++ '\n' :: tail)) := by
    rw [htext, readKey_bare h.name (by simp; decide) (by simp [skipBlanks, isBlank])]
    simp [skipBlanks, isBlank]
  have hskip : skipBlanks (' ' :: (l.written.toList ++ '\n' :: tail)) =
      l.written.toList ++ '\n' :: tail := by
    have hfirst := h.first
    cases hw : l.written.toList with
    | nil => simp [skipBlanks, isBlank]
    | cons c rest =>
      have hc : isBlank c = false := hfirst c (by simp [hw])
      have hspace : isBlank ' ' = true := by decide
      simp [skipBlanks, hspace, hc]
  simp only [readPair, hkey, hskip, h.read, Option.map_some]

section
variable {draft draft' : Draft} {c : Char} {cs tail : List Char}

theorem readLines_of_readLine (hblank : isBlank c = false) (hcomment : c ≠ '#') (hline : c ≠ '\n')
    (h : draft.readLine (c :: cs) = some (draft', tail)) (n : Nat) :
    draft.readLines (n + 1) (c :: cs) = draft'.readLines n tail := by
  have hskip : skipBlanks (c :: cs) = c :: cs := by simp [skipBlanks, hblank]
  have hafter : afterLine? (c :: cs) = none := by
    simp [afterLine?, hskip, hcomment, hline]
  simp only [Draft.readLines, hskip, hafter, h]

theorem readLines_line {l : Line} (h : l.Sound) (hd : draft.assign [] l.name l.datum = some draft')
    (n : Nat) : draft.readLines (n + 1) (l.text ++ tail) = draft'.readLines n tail := by
  have hpair := readPair_line h tail
  obtain ⟨c, rest, he, hc⟩ := h.name.exists_eq_cons
  have htext : ∃ cs, l.text ++ tail = c :: cs := by
    simp [Line.text, settingLine, he]
  obtain ⟨cs, hcs⟩ := htext
  rw [hcs] at hpair ⊢
  have hbracket := isBare_ne hc (x := '[') (by decide)
  refine readLines_of_readLine (isBlank_of_isBare hc) (isBare_ne hc (by decide))
    (isBare_ne hc (by decide)) ?_ n
  rw [Draft.readLine.eq_3 _ _ (fun _ heq => hbracket (List.cons.inj heq).1)
    (fun _ heq => hbracket (List.cons.inj heq).1)]
  simp only [Draft.step, hpair, hd, afterLine?_newline]

def headerText (header : String) : List Char := '[' :: header.toList ++ [']', '\n']

theorem readLines_header {header : String} (h : BareName header)
    (hd : draft.openTable [] header = some draft') (n : Nat) :
    draft.readLines (n + 1) (headerText header ++ tail) = draft'.readLines n tail := by
  have htext : headerText header ++ tail = '[' :: (header.toList ++ ']' :: '\n' :: tail) := by
    simp [headerText]
  have hkey : readKey (header.toList ++ ']' :: '\n' :: tail) =
      some (([], header), ']' :: '\n' :: tail) := by
    rw [readKey_bare h (by simp; decide) (by simp [skipBlanks, isBlank])]
    simp [skipBlanks, isBlank]
  obtain ⟨c, rest, he, hc⟩ := h.exists_eq_cons
  have hbracket := isBare_ne hc (x := '[') (by decide)
  rw [htext]
  refine readLines_of_readLine (by decide) (by decide) (by decide) ?_ n
  rw [Draft.readLine.eq_2 _ _ (fun _ heq => by
    rw [he, List.cons_append] at heq
    exact hbracket (List.cons.inj heq).1)]
  simp [Draft.step, readHeader, hkey, hd, afterLine?_newline]

end

/-! ## Tables -/

def linesText (lines : List Line) : List Char := lines.flatMap Line.text

theorem BareName.return_not_mem {name : String} (h : BareName name) : '\r' ∉ name.toList :=
  fun hm => isBare_ne (h.isBare _ hm) (x := '\r') (by decide) rfl

theorem return_not_mem_headerText {header : String} (h : BareName header) :
    '\r' ∉ headerText header := by
  simp [headerText, h.return_not_mem]

theorem return_not_mem_linesText {lines : List Line} (hs : ∀ l ∈ lines, l.Sound) :
    '\r' ∉ linesText lines := by
  intro hm
  obtain ⟨l, hl, hr⟩ := List.mem_flatMap.mp hm
  have hname := (hs l hl).name.return_not_mem
  have hwritten := (hs l hl).noReturn
  simp [Line.text, settingLine, hname, hwritten] at hr

theorem readLines_lines {before : Entries} {header : String}
    (hheader : header ∉ before.map Prod.fst) {lines : List Line} (hs : ∀ l ∈ lines, l.Sound)
    {entries : Entries} (hnodup : (entries.map Prod.fst ++ lines.map Line.name).Nodup)
    (tail : List Char) (n : Nat) :
    (Draft.under before header entries).readLines (n + lines.length) (linesText lines ++ tail) =
      (Draft.under before header (entries ++ lines.map Line.node)).readLines n tail := by
  -- Each line finds a table with those before it, so the entries are general in the induction.
  induction lines generalizing entries with
  | nil => simp [linesText]
  | cons l rest ih =>
    have hname : l.name ∉ entries.map Prod.fst := by
      intro hm
      exact (List.nodup_append.mp hnodup).2.2 _ hm _ (by simp) rfl
    have hrest : ((entries ++ [l.node]).map Prod.fst ++ rest.map Line.name).Nodup := by
      simpa [Line.node] using hnodup
    have hassign := Draft.assign_new hheader hname l.datum
    have htext : linesText (l :: rest) ++ tail = l.text ++ (linesText rest ++ tail) := by
      simp [linesText]
    rw [htext, List.length_cons, ← Nat.add_assoc,
      readLines_line (hs l (by simp)) hassign]
    have hih := ih (fun k hk => hs k (by simp [hk])) hrest
    simpa [Line.node] using hih

/-- A table under a header: the draft has it at its end, with the data of its lines. -/
theorem readLines_table {draft : Draft} {header : String} (hname : BareName header)
    (hheader : header ∉ draft.root.map Prod.fst) {lines : List Line} (hs : ∀ l ∈ lines, l.Sound)
    (hnodup : (lines.map Line.name).Nodup) (tail : List Char) (n : Nat) :
    draft.readLines (n + lines.length + 1) (headerText header ++ (linesText lines ++ tail)) =
      (Draft.under draft.root header (lines.map Line.node)).readLines n tail := by
  rw [readLines_header hname (Draft.openTable_new hheader)]
  have hnames : (([] : Entries).map Prod.fst ++ lines.map Line.name).Nodup := by
    simpa using hnodup
  have hlines := readLines_lines hheader hs hnames tail n
  simpa using hlines

end HostBridge.Document
