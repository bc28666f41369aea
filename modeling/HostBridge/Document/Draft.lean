import HostBridge.Document.Datum

/-! # Drafts

A document while it is being read. Tables remember how they came to be, because that decides what
may still be added to them: a header opens a table once, a dotted key extends only tables that
dotted keys made, and nothing is ever added to a datum that was written out as a value.
-/
namespace HostBridge.Document

inductive Origin where
  | header
  /-- A header farther down was read before its own. -/
  | implied
  | dotted
deriving DecidableEq, Repr

inductive Node where
  | leaf (datum : Datum)
  | table (origin : Origin) (entries : List (String × Node))
  /-- Tables under a repeated header; the last one is open. -/
  | tables (earlier : List (List (String × Node))) (last : List (String × Node))

abbrev Entries := List (String × Node)

namespace Entries

/-- Changes what stands under a key, in its place; what was not there goes to the end. -/
def alter (key : String) (change : Option Node → Option Node) : Entries → Option Entries
  | [] => (change none).map fun node => [(key, node)]
  | entry :: rest =>
    if entry.1 = key then (change (some entry.2)).map fun node => (key, node) :: rest
    else (alter key change rest).map fun rest => entry :: rest

/-- Changes the table that a header path leads to. Missing tables on the way are implied, and of
repeated tables the last is meant. -/
def within (change : Entries → Option Entries) : List String → Entries → Option Entries
  | [], entries => change entries
  | key :: path, entries => alter key (fun
    | none => (within change path []).map (.table .implied)
    | some (.table origin inner) => (within change path inner).map (.table origin)
    | some (.tables earlier last) => (within change path last).map (.tables earlier)
    | some (.leaf _) => none) entries

/-- Opens the table of a header. If other headers implied it, it keeps what they put there and moves
to the end. -/
def openTable (key : String) (entries : Entries) : Option Entries :=
  match entries.lookup key with
  | none => some (entries ++ [(key, .table .header [])])
  | some (.table .implied inner) =>
    some (entries.filter (·.1 != key) ++ [(key, .table .header inner)])
  | some _ => none

def openElement (key : String) : Entries → Option Entries :=
  alter key fun
    | none => some (.tables [] [])
    | some (.tables earlier last) => some (.tables (earlier ++ [last]) [])
    | some _ => none

def assignNew (key : String) (datum : Datum) : Entries → Option Entries :=
  alter key fun
    | none => some (.leaf datum)
    | some _ => none

/-- Sets the key at the end of a dotted key. The tables on the way are made if they are missing; the
last of them has to be one that a dotted key made, and those before it must not have a header. -/
def assign (key : String) (datum : Datum) : List String → Entries → Option Entries
  | [], entries => assignNew key datum entries
  | step :: path, entries => alter step (fun
    | none => (assign key datum path []).map (.table .dotted)
    | some (.table .dotted inner) => (assign key datum path inner).map (.table .dotted)
    | some (.table .implied inner) =>
      if path.isEmpty then none else (assign key datum path inner).map (.table .implied)
    | some (.tables earlier last) =>
      if path.isEmpty then none else (assign key datum path last).map (.tables earlier)
    | some (.table .header _) | some (.leaf _) => none) entries

end Entries

mutual

def Node.datum (n : Node) : Datum :=
  match n with
  | .leaf datum => datum
  | .table _ entries => .table (finishEntries entries)
  | .tables earlier last => .array (finishTables earlier ++ [.table (finishEntries last)])
termination_by structural n

def finishEntries (entries : List (String × Node)) : List (String × Datum) :=
  match entries with
  | [] => []
  | entry :: rest => finishEntry entry :: finishEntries rest
termination_by structural entries

def finishEntry (entry : String × Node) : String × Datum :=
  match entry with
  | (key, node) => (key, node.datum)
termination_by structural entry

def finishTables (tables : List (List (String × Node))) : List Datum :=
  match tables with
  | [] => []
  | entries :: rest => .table (finishEntries entries) :: finishTables rest
termination_by structural tables

end

structure Draft where
  root : Entries
  here : List String

namespace Draft

def empty : Draft := ⟨[], []⟩

def openTable (draft : Draft) (parents : List String) (key : String) : Option Draft :=
  (Entries.within (Entries.openTable key) parents draft.root).map fun root =>
    ⟨root, parents ++ [key]⟩

def openElement (draft : Draft) (parents : List String) (key : String) : Option Draft :=
  (Entries.within (Entries.openElement key) parents draft.root).map fun root =>
    ⟨root, parents ++ [key]⟩

def assign (draft : Draft) (path : List String) (key : String) (datum : Datum) : Option Draft :=
  (Entries.within (Entries.assign key datum path) draft.here draft.root).map fun root =>
    { draft with root }

def finish (draft : Draft) : List (String × Datum) := finishEntries draft.root

end Draft

end HostBridge.Document
