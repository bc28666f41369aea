import HostBridge.Value.Basic

/-! # Keyword arguments

Values by name, in no order that anything can rely on: what a body gets to see is the snapshot, a
dict in the order of the names. No name occurs twice.
-/
namespace HostBridge

/-- The entries with one name set: an entry of this name is replaced where it stands. -/
def setEntry (name : String) (value : Value) : List (String × Value) → List (String × Value)
  | [] => [(name, value)]
  | entry :: rest =>
    if name = entry.1 then (name, value) :: rest else entry :: setEntry name value rest

theorem mem_fst_setEntry {name other : String} {value : Value} {entries : List (String × Value)} :
    other ∈ (setEntry name value entries).map Prod.fst ↔
      other = name ∨ other ∈ entries.map Prod.fst := by
  induction entries with
  | nil => simp [setEntry]
  | cons entry rest ih =>
    by_cases h : name = entry.1
    · simp [setEntry, h]
    · rw [setEntry, if_neg h, List.map_cons, List.mem_cons, ih, List.map_cons, List.mem_cons]
      exact or_left_comm

theorem nodup_setEntry {name : String} {value : Value} {entries : List (String × Value)}
    (h : (entries.map Prod.fst).Nodup) : ((setEntry name value entries).map Prod.fst).Nodup := by
  induction entries with
  | nil => simp [setEntry]
  | cons entry rest ih =>
    obtain ⟨hfresh, hrest⟩ := List.nodup_cons.mp h
    by_cases hn : name = entry.1
    · rw [setEntry, if_pos hn, List.map_cons]
      exact List.nodup_cons.mpr ⟨hn ▸ hfresh, hrest⟩
    · rw [setEntry, if_neg hn, List.map_cons]
      refine List.nodup_cons.mpr ⟨fun hm => ?_, ih hrest⟩
      rcases mem_fst_setEntry.mp hm with he | he
      · exact hn he.symm
      · exact hfresh he

structure Keywords where
  entries : List (String × Value)
  nodup : (entries.map Prod.fst).Nodup

namespace Keywords

def empty : Keywords := ⟨[], by simp⟩

def insert (kwargs : Keywords) (name : String) (value : Value) : Keywords :=
  ⟨setEntry name value kwargs.entries, nodup_setEntry kwargs.nodup⟩

/-- Names and values in turn; of several with one name the last counts. -/
def ofList (entries : List (String × Value)) : Keywords :=
  entries.foldl (fun kwargs entry => kwargs.insert entry.1 entry.2) empty

def get? (kwargs : Keywords) (name : String) : Option Value := kwargs.entries.lookup name

def size (kwargs : Keywords) : Nat := kwargs.entries.length

def snapshot (kwargs : Keywords) : Value := Value.ofEntries kwargs.entries

end Keywords

end HostBridge
