import HostBridge.Document.Reader

/-! # Tables of a document have distinct keys

What a line adds to a draft, it adds under a key that is not there yet, or to the node under a key that
is. So no table of a draft ever has two entries with one key, and neither has any table of the data
that a document is read as, at any depth.
-/
namespace HostBridge.Document

inductive Datum.Keyed : Datum → Prop where
  | string (s : String) : Keyed (.string s)
  | integer (i : Int64) : Keyed (.integer i)
  | float (x : Binary64) : Keyed (.float x)
  | boolean (b : Bool) : Keyed (.boolean b)
  | moment : Keyed .moment
  | array {items : List Datum} (parts : ∀ d ∈ items, Keyed d) : Keyed (.array items)
  | table {entries : List (String × Datum)} (keys : (entries.map Prod.fst).Nodup)
      (parts : ∀ e ∈ entries, Keyed e.2) : Keyed (.table entries)

theorem Datum.Keyed.keys {entries : List (String × Datum)} (h : (Datum.table entries).Keyed) :
    (entries.map Prod.fst).Nodup := by
  cases h
  assumption

theorem Datum.Keyed.part {entries : List (String × Datum)} (h : (Datum.table entries).Keyed)
    {name : String} {d : Datum} (hmem : (name, d) ∈ entries) : d.Keyed := by
  cases h with
  | table keys parts => exact parts (name, d) hmem

inductive Node.Keyed : Node → Prop where
  | leaf {datum : Datum} (h : datum.Keyed) : Keyed (.leaf datum)
  | table {origin : Origin} {entries : Entries} (keys : (entries.map Prod.fst).Nodup)
      (parts : ∀ e ∈ entries, Keyed e.2) : Keyed (.table origin entries)
  | tables {earlier : List Entries} {last : Entries}
      (keys : ∀ entries ∈ earlier ++ [last], (entries.map Prod.fst).Nodup)
      (parts : ∀ entries ∈ earlier ++ [last], ∀ e ∈ entries, Keyed e.2) :
      Keyed (.tables earlier last)

structure Entries.Keyed (entries : Entries) : Prop where
  keys : (entries.map Prod.fst).Nodup
  parts : ∀ e ∈ entries, e.2.Keyed

/-! ## Changing a draft -/

theorem Node.Keyed.entries {origin : Origin} {entries : Entries}
    (h : (Node.table origin entries).Keyed) : Entries.Keyed entries := by
  cases h with
  | table keys parts => exact ⟨keys, parts⟩

theorem Node.keyed_table {entries : Entries} (origin : Origin) (h : Entries.Keyed entries) :
    (Node.table origin entries).Keyed := .table h.keys h.parts

theorem Node.keyed_tables_iff {earlier : List Entries} {last : Entries} :
    (Node.tables earlier last).Keyed ↔ ∀ entries ∈ earlier ++ [last], Entries.Keyed entries := by
  constructor
  · rintro (_ | _ | ⟨keys, parts⟩) entries he
    exact ⟨keys entries he, parts entries he⟩
  · intro h
    exact .tables (fun entries he => (h entries he).keys) fun entries he => (h entries he).parts

namespace Entries

theorem keyed_nil : Keyed [] := ⟨List.nodup_nil, by simp⟩

theorem Keyed.of_lookup {entries : Entries} {key : String} {node : Node} (h : Keyed entries)
    (hl : entries.lookup key = some node) : node.Keyed := by
  obtain ⟨before, later, rfl, -⟩ := List.lookup_eq_some_iff.mp hl
  exact h.parts (key, node) (by simp)

/-- The change makes a node with distinct keys, from none or from such a node. -/
def Keeps (change : Option Node → Option Node) : Prop :=
  ∀ {before after}, (∀ node, before = some node → node.Keyed) → change before = some after →
    after.Keyed

theorem mem_keys_alter {key name : String} {change : Option Node → Option Node}
    {entries after : Entries} (h : alter key change entries = some after)
    (hn : name ∈ after.map Prod.fst) : name = key ∨ name ∈ entries.map Prod.fst := by
  induction entries generalizing after with
  | nil =>
    obtain ⟨node, -, rfl⟩ := Option.map_eq_some_iff.mp h
    exact .inl (List.mem_singleton.mp hn)
  | cons entry rest ih =>
    rw [alter] at h
    split at h
    · obtain ⟨node, -, rfl⟩ := Option.map_eq_some_iff.mp h
      rcases List.mem_cons.mp hn with hn | hn
      · exact .inl hn
      · exact .inr (List.mem_cons_of_mem _ hn)
    · obtain ⟨later, hlater, rfl⟩ := Option.map_eq_some_iff.mp h
      rcases List.mem_cons.mp hn with hn | hn
      · exact .inr (List.mem_cons.mpr (.inl hn))
      · exact (ih hlater hn).imp_right (List.mem_cons_of_mem _)

theorem Keyed.alter {key : String} {change : Option Node → Option Node} {entries after : Entries}
    (h : Keyed entries) (hc : Keeps change) (ha : alter key change entries = some after) :
    Keyed after := by
  induction entries generalizing after with
  | nil =>
    obtain ⟨node, hnode, rfl⟩ := Option.map_eq_some_iff.mp ha
    exact ⟨by simp, by simpa using hc (by simp) hnode⟩
  | cons entry rest ih =>
    obtain ⟨hfresh, hrest⟩ := List.nodup_cons.mp h.keys
    have hparts := List.forall_mem_cons.mp h.parts
    rw [Entries.alter] at ha
    split at ha
    · rename_i hkey
      obtain ⟨node, hnode, rfl⟩ := Option.map_eq_some_iff.mp ha
      refine ⟨List.nodup_cons.mpr ⟨hkey ▸ hfresh, hrest⟩, List.forall_mem_cons.mpr ⟨?_, hparts.2⟩⟩
      refine hc ?_ hnode
      rintro _ ⟨⟩
      exact hparts.1
    · rename_i hkey
      obtain ⟨later, hlater, rfl⟩ := Option.map_eq_some_iff.mp ha
      have hl := ih ⟨hrest, hparts.2⟩ hlater
      refine ⟨List.nodup_cons.mpr ⟨fun hmem => ?_, hl.keys⟩,
        List.forall_mem_cons.mpr ⟨hparts.1, hl.parts⟩⟩
      rcases mem_keys_alter hlater hmem with he | hmem
      · exact hkey he
      · exact hfresh hmem

/-- The change keeps the keys of entries distinct. -/
def Preserves (change : Entries → Option Entries) : Prop :=
  ∀ {before after}, Keyed before → change before = some after → Keyed after

section
variable {change : Entries → Option Entries} (hc : Preserves change)
include hc

theorem Preserves.table {origin : Origin} {before : Entries} {node : Node} (h : Keyed before)
    (hn : (change before).map (.table origin) = some node) : node.Keyed := by
  obtain ⟨after, ha, rfl⟩ := Option.map_eq_some_iff.mp hn
  exact Node.keyed_table origin (hc h ha)

theorem Preserves.tables {earlier : List Entries} {last : Entries} {node : Node}
    (h : (Node.tables earlier last).Keyed)
    (hn : (change last).map (.tables earlier) = some node) : node.Keyed := by
  obtain ⟨after, ha, rfl⟩ := Option.map_eq_some_iff.mp hn
  have hall := List.forall_mem_append.mp (Node.keyed_tables_iff.mp h)
  refine Node.keyed_tables_iff.mpr (List.forall_mem_append.mpr ⟨hall.1, ?_⟩)
  exact List.forall_mem_singleton.mpr (hc (List.forall_mem_singleton.mp hall.2) ha)

theorem preserves_within (path : List String) : Preserves (within change path) := by
  induction path with
  | nil => exact hc
  | cons key path ih =>
    intro entries after h hw
    rw [within] at hw
    refine h.alter (fun {before node} hb hn => ?_) hw
    split at hn
    · exact Preserves.table ih keyed_nil hn
    · exact Preserves.table ih (hb _ rfl).entries hn
    · exact Preserves.tables ih (hb _ rfl) hn
    · cases hn

end

theorem Keyed.concat {entries : Entries} {key : String} {node : Node} (h : Keyed entries)
    (hfresh : ∀ e ∈ entries, e.1 ≠ key) (hn : node.Keyed) : Keyed (entries ++ [(key, node)]) := by
  refine ⟨?_, List.forall_mem_append.mpr ⟨h.parts, List.forall_mem_singleton.mpr hn⟩⟩
  rw [List.map_append, List.nodup_append]
  refine ⟨h.keys, by simp, ?_⟩
  rintro name hname _ hkey rfl
  obtain ⟨e, he, rfl⟩ := List.mem_map.mp hname
  exact hfresh e he (List.mem_singleton.mp hkey)

theorem Keyed.filter {entries : Entries} (h : Keyed entries) (p : String × Node → Bool) :
    Keyed (entries.filter p) :=
  ⟨h.keys.sublist (List.filter_sublist.map _), fun e he => h.parts e (List.mem_filter.mp he).1⟩

theorem preserves_openTable (key : String) : Preserves (openTable key) := by
  intro entries after h ho
  rw [openTable] at ho
  split at ho
  · rename_i hnone
    cases ho
    refine h.concat (fun e he => ?_) (Node.keyed_table .header keyed_nil)
    have hne := List.lookup_eq_none_iff.mp hnone e he
    exact fun hkey => absurd hkey.symm (by simpa using hne)
  · rename_i inner hsome
    cases ho
    refine (h.filter _).concat (fun e he => ?_) (Node.keyed_table .header (h.of_lookup hsome).entries)
    simpa using (List.mem_filter.mp he).2
  · cases ho

theorem preserves_openElement (key : String) : Preserves (openElement key) := by
  intro entries after h ho
  refine h.alter (fun {before node} hb hn => ?_) ho
  split at hn
  · cases hn
    exact Node.keyed_tables_iff.mpr (List.forall_mem_singleton.mpr keyed_nil)
  · rename_i earlier last
    cases hn
    refine Node.keyed_tables_iff.mpr (List.forall_mem_append.mpr
      ⟨Node.keyed_tables_iff.mp (hb _ rfl), List.forall_mem_singleton.mpr keyed_nil⟩)
  · cases hn

theorem preserves_assign {datum : Datum} (hd : datum.Keyed) (key : String) (path : List String) :
    Preserves (assign key datum path) := by
  induction path with
  | nil =>
    intro entries after h ha
    refine h.alter (fun {before node} hb hn => ?_) ha
    split at hn
    · cases hn
      exact .leaf hd
    · cases hn
  | cons step path ih =>
    intro entries after h ha
    rw [assign] at ha
    refine h.alter (fun {before node} hb hn => ?_) ha
    split at hn
    · exact Preserves.table ih keyed_nil hn
    · exact Preserves.table ih (hb _ rfl).entries hn
    · split at hn
      · cases hn
      · exact Preserves.table ih (hb _ rfl).entries hn
    · split at hn
      · cases hn
      · exact Preserves.tables ih (hb _ rfl) hn
    · cases hn
    · cases hn

end Entries

/-! ## From a draft to its data -/

theorem finishEntries_eq_map (entries : Entries) :
    finishEntries entries = entries.map fun e => (e.1, e.2.datum) := by
  induction entries with
  | nil => rfl
  | cons e rest ih => rw [finishEntries, ih, finishEntry]; rfl

theorem finishTables_eq_map (tables : List Entries) :
    finishTables tables = tables.map fun entries => .table (finishEntries entries) := by
  induction tables with
  | nil => rfl
  | cons entries rest ih => rw [finishTables, ih]; rfl

theorem keyed_finishEntries {entries : Entries} (hk : (entries.map Prod.fst).Nodup)
    (hp : ∀ e ∈ entries, e.2.datum.Keyed) : (Datum.table (finishEntries entries)).Keyed := by
  rw [finishEntries_eq_map]
  refine .table (by simpa [Function.comp_def] using hk) fun e he => ?_
  obtain ⟨named, hmem, rfl⟩ := List.mem_map.mp he
  exact hp named hmem

theorem Node.Keyed.datum {node : Node} (h : node.Keyed) : node.datum.Keyed := by
  induction h with
  | leaf h => exact h
  | table keys parts ih => exact keyed_finishEntries keys ih
  | @tables earlier last keys parts ih =>
    have hmap : finishTables earlier ++ [.table (finishEntries last)] =
        (earlier ++ [last]).map fun entries => .table (finishEntries entries) := by
      rw [finishTables_eq_map, List.map_append, List.map_singleton]
    rw [Node.datum, hmap]
    refine .array fun d hd => ?_
    obtain ⟨entries, he, rfl⟩ := List.mem_map.mp hd
    exact keyed_finishEntries (keys entries he) (ih entries he)

theorem Entries.Keyed.finish {entries : Entries} (h : Keyed entries) :
    (Datum.table (finishEntries entries)).Keyed :=
  keyed_finishEntries h.keys fun e he => (h.parts e he).datum

/-! ## Reading -/

/-- Whatever is read has distinct keys. -/
def ReadsKeyed (item : Reader Datum) : Prop :=
  ∀ {cs datum rest}, item cs = some (datum, rest) → datum.Keyed

theorem keyed_integerOf? {negative : Bool} {n : Nat} {datum : Datum}
    (h : integerOf? negative n = some datum) : datum.Keyed := by
  simp only [integerOf?, Option.ite_none_right_eq_some, Option.some.injEq] at h
  obtain ⟨-, rfl⟩ := h
  exact .integer _

theorem keyed_floatOf? {x : Binary64} {datum : Datum} (h : floatOf? x = some datum) :
    datum.Keyed := by
  simp only [floatOf?, Option.ite_none_left_eq_some, Option.some.injEq] at h
  obtain ⟨-, rfl⟩ := h
  exact .float _

theorem readsKeyed_readBased (base : Nat) (isDigit : Char → Bool) :
    ReadsKeyed (readBased base isDigit) := by
  intro cs datum rest h
  rw [readBased] at h
  split at h
  · cases h
  · obtain ⟨_, hd, ⟨⟩⟩ := Option.map_eq_some_iff.mp h
    exact keyed_integerOf? hd

theorem readsKeyed_readDecimal (negative : Bool) : ReadsKeyed (readDecimal negative) := by
  intro cs datum rest h
  rw [readDecimal] at h
  repeat' split at h
  all_goals try cases h
  obtain ⟨_, hd, ⟨⟩⟩ := Option.map_eq_some_iff.mp h
  rw [decimalOf?] at hd
  split at hd
  · exact keyed_integerOf? hd
  · exact keyed_floatOf? hd

theorem readsKeyed_readNumber : ReadsKeyed readNumber := by
  intro cs datum rest h
  unfold readNumber at h
  split at h
  · exact readsKeyed_readBased _ _ h
  · exact readsKeyed_readBased _ _ h
  · exact readsKeyed_readBased _ _ h
  · simp only [readSigned] at h
    split at h
    · cases h
      exact .float _
    · cases h
      exact .float _
    · exact readsKeyed_readDecimal _ h

theorem readsKeyed_readPlainDatum : ReadsKeyed readPlainDatum := by
  intro cs datum rest h
  rw [readPlainDatum] at h
  split at h
  · rename_i read hm
    cases h
    rw [readMoment] at hm
    split at hm
    · cases hm
      exact .moment
    · obtain ⟨_, -, ⟨⟩⟩ := Option.map_eq_some_iff.mp hm
      exact .moment
  · exact readsKeyed_readNumber h

theorem withFirst_eq_some {α : Type} {a : α} {r : Option (List α × List Char)}
    {as : List α} {rest : List Char} (h : withFirst a r = some (as, rest)) :
    ∃ later, r = some (later, rest) ∧ as = a :: later := by
  obtain ⟨⟨later, rest'⟩, hr, ⟨⟩⟩ := Option.map_eq_some_iff.mp h
  exact ⟨later, hr, rfl⟩

section
variable {item : Reader Datum} (hi : ReadsKeyed item)
include hi

theorem keyed_readElements (bound : Nat) {cs : List Char} {items : List Datum} {rest : List Char}
    (h : readElements item bound cs = some (items, rest)) : ∀ d ∈ items, d.Keyed := by
  induction bound generalizing cs items with
  | zero => cases h
  | succ bound ih =>
    rw [readElements] at h
    split at h
    · cases h
      simp
    · split at h
      · cases h
      · rename_i hd
        split at h
        · obtain ⟨later, hlater, rfl⟩ := withFirst_eq_some h
          exact List.forall_mem_cons.mpr ⟨hi hd, ih hlater⟩
        · cases h
          exact List.forall_mem_singleton.mpr (hi hd)
        · cases h

theorem readsKeyed_readArray : ReadsKeyed (readArray item) := by
  intro cs datum rest h
  obtain ⟨⟨items, _⟩, he, ⟨⟩⟩ := Option.map_eq_some_iff.mp h
  exact .array (keyed_readElements hi _ he)

theorem keyed_readPair {cs : List Char} {pair : Key × Datum} {rest : List Char}
    (h : readPair item cs = some (pair, rest)) : pair.2.Keyed := by
  rw [readPair] at h
  split at h
  · obtain ⟨⟨datum, _⟩, hd, ⟨⟩⟩ := Option.map_eq_some_iff.mp h
    exact hi hd
  · cases h

theorem keyed_readPairs (bound : Nat) {cs : List Char} {pairs : List (Key × Datum)}
    {rest : List Char} (h : readPairs item bound cs = some (pairs, rest)) :
    ∀ pair ∈ pairs, pair.2.Keyed := by
  induction bound generalizing cs pairs with
  | zero => cases h
  | succ bound ih =>
    rw [readPairs] at h
    split at h
    · cases h
    · rename_i hp
      split at h
      · obtain ⟨later, hlater, rfl⟩ := withFirst_eq_some h
        exact List.forall_mem_cons.mpr ⟨keyed_readPair hi hp, ih hlater⟩
      · cases h
        exact List.forall_mem_singleton.mpr (keyed_readPair hi hp)
      · cases h

end

theorem keyed_tableOf? {pairs : List (Key × Datum)} {datum : Datum}
    (hp : ∀ pair ∈ pairs, pair.2.Keyed) (h : tableOf? pairs = some datum) : datum.Keyed := by
  obtain ⟨entries, he, rfl⟩ := Option.map_eq_some_iff.mp h
  have hkeyed : ∀ before, Entries.Keyed before →
      pairs.foldlM (fun entries pair => Entries.assign pair.1.2 pair.2 pair.1.1 entries) before =
        some entries → Entries.Keyed entries := by
    clear h he
    induction pairs with
    | nil =>
      rintro before hb ⟨⟩
      exact hb
    | cons pair rest ih =>
      intro before hb hfold
      have hparts := List.forall_mem_cons.mp hp
      rw [List.foldlM_cons] at hfold
      obtain ⟨after, ha, hrest⟩ := Option.bind_eq_some_iff.mp hfold
      exact ih hparts.2 after (Entries.preserves_assign hparts.1 _ _ hb ha) hrest
  exact (hkeyed [] Entries.keyed_nil he).finish

theorem readsKeyed_readInlineTable {item : Reader Datum} (hi : ReadsKeyed item) :
    ReadsKeyed (readInlineTable item) := by
  intro cs datum rest h
  rw [readInlineTable] at h
  split at h
  · cases h
    exact .table List.nodup_nil (by simp)
  · split at h
    · cases h
    · rename_i hpairs
      obtain ⟨_, ht, ⟨⟩⟩ := Option.map_eq_some_iff.mp h
      exact keyed_tableOf? (keyed_readPairs hi _ hpairs) ht

theorem readsKeyed_of_inner {depth : Nat}
    (hi : ∀ inner, depth = inner + 1 → ReadsKeyed (readDatumWithin inner)) :
    ReadsKeyed (readDatumWithin depth) := by
  intro cs datum rest h
  fun_induction readDatumWithin depth cs generalizing datum rest with
  | case1 => cases h; exact .boolean true
  | case2 => cases h; exact .boolean false
  | case3 => exact readsKeyed_readArray (hi _ rfl) h
  | case4 => exact readsKeyed_readInlineTable (hi _ rfl) h
  | case5 => cases h; exact .string _
  | case6 => exact readsKeyed_readPlainDatum h

theorem readsKeyed_readDatumWithin (depth : Nat) : ReadsKeyed (readDatumWithin depth) := by
  induction depth with
  | zero => exact readsKeyed_of_inner fun _ h => absurd h (Nat.zero_ne_add_one _)
  | succ depth ih =>
    refine readsKeyed_of_inner ?_
    rintro _ ⟨⟩
    exact ih

/-! ## Lines -/

theorem Draft.keyed_step {α : Type} {change : α → Option Draft} {read : Option (α × List Char)}
    {draft : Draft} {rest : List Char}
    (hc : ∀ a later draft, read = some (a, later) → change a = some draft →
      Entries.Keyed draft.root)
    (h : Draft.step change read = some (draft, rest)) : Entries.Keyed draft.root := by
  unfold Draft.step at h
  split at h
  · cases h
  · rename_i a later
    split at h
    · rename_i changed _ hchanged _
      cases h
      exact hc a later draft rfl hchanged
    · cases h

theorem Draft.keyed_readLine {draft after : Draft} {cs rest : List Char}
    (hd : Entries.Keyed draft.root) (h : draft.readLine cs = some (after, rest)) :
    Entries.Keyed after.root := by
  unfold Draft.readLine at h
  split at h
  · refine Draft.keyed_step (fun key _ changed _ hchange => ?_) h
    obtain ⟨root, hroot, rfl⟩ := Option.map_eq_some_iff.mp hchange
    exact Entries.preserves_within (Entries.preserves_openElement _) _ hd hroot
  · refine Draft.keyed_step (fun key _ changed _ hchange => ?_) h
    obtain ⟨root, hroot, rfl⟩ := Option.map_eq_some_iff.mp hchange
    exact Entries.preserves_within (Entries.preserves_openTable _) _ hd hroot
  · refine Draft.keyed_step (fun pair _ changed hread hchange => ?_) h
    obtain ⟨root, hroot, rfl⟩ := Option.map_eq_some_iff.mp hchange
    have hpair := keyed_readPair (readsKeyed_readDatumWithin nestingLimit) hread
    exact Entries.preserves_within (Entries.preserves_assign hpair _ _) _ hd hroot

theorem Draft.keyed_readLines (bound : Nat) {draft after : Draft} {cs : List Char}
    (hd : Entries.Keyed draft.root) (h : draft.readLines bound cs = some after) :
    Entries.Keyed after.root := by
  induction bound generalizing draft cs with
  | zero => cases h
  | succ bound ih =>
    rw [Draft.readLines] at h
    split at h
    · cases h
      exact hd
    · split at h
      · exact ih hd h
      · split at h
        · rename_i hline
          exact ih (Draft.keyed_readLine hd hline) h
        · cases h

/-- No table of a document, at any depth, has two entries with one key. -/
theorem keyed_of_read? {text : String} {entries : List (String × Datum)}
    (h : read? text = some entries) : (Datum.table entries).Keyed := by
  obtain ⟨draft, hdraft, rfl⟩ := Option.map_eq_some_iff.mp h
  exact (Draft.keyed_readLines _ Entries.keyed_nil hdraft).finish

end HostBridge.Document
