import HostBridge.Number.Binary64

/-! # Data of a configuration document

What a TOML document says once its layout is gone: a table of named data in the order in which the
document first mentions them.
-/
namespace HostBridge.Document

inductive Datum where
  | string (s : String)
  | integer (i : Int64)
  | float (x : Binary64)
  | boolean (b : Bool)
  /-- A date, a time or both; nothing depends on which one. -/
  | moment
  | array (items : List Datum)
  | table (entries : List (String × Datum))

/-- A reader takes what it reads from the front of the text and gives the rest back. -/
abbrev Reader (α : Type) := List Char → Option (α × List Char)

def withFirst {α : Type} (a : α) (r : Option (List α × List Char)) : Option (List α × List Char) :=
  r.map fun (as, rest) => (a :: as, rest)

end HostBridge.Document
