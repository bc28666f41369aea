import HostBridge.Document.Draft
import HostBridge.Document.Moment
import HostBridge.Document.Number
import HostBridge.Document.Text

/-! # Reading a document

TOML 1.0: keys, values, and the lines that put them into a draft. Values nest and keys are dotted up
to a limit, which is also what the recursion runs on.
-/
namespace HostBridge.Document

def nestingLimit : Nat := 79

def keyLimit : Nat := 79

def skipBlanks (cs : List Char) : List Char := cs.dropWhile isBlank

/-! ## Keys -/

def isBare (c : Char) : Bool := c.isAlphanum || c = '_' || c = '-'

def readKeyPart (cs : List Char) : Option (String × List Char) :=
  match cs with
  | '"' :: rest => (TextForm.basic.body .nothing rest).map fun (s, rest) => (String.ofList s, rest)
  | '\'' :: rest =>
    (TextForm.literal.body .nothing rest).map fun (s, rest) => (String.ofList s, rest)
  | _ =>
    let bare := cs.takeWhile isBare
    if bare.isEmpty then none else some (String.ofList bare, cs.dropWhile isBare)

abbrev Key := List String × String

def readKeyWithin : Nat → Reader Key
  | 0, _ => none
  | limit + 1, cs =>
    match readKeyPart (skipBlanks cs) with
    | none => none
    | some (part, rest) =>
      match skipBlanks rest with
      | '.' :: rest =>
        (readKeyWithin limit rest).map fun (key, rest) => ((part :: key.1, key.2), rest)
      | rest => some (([], part), rest)

def readKey : Reader Key := readKeyWithin keyLimit

/-! ## Values -/

/-- Skips what may stand between the elements of an array: blanks, line ends and comments. The flag
says whether a comment has begun. -/
def skipFiller : Bool → List Char → List Char
  | _, [] => []
  | true, c :: rest =>
    if c = '\n' then skipFiller false rest
    else if isPlain c then skipFiller true rest
    else c :: rest
  | false, c :: rest =>
    if c = '#' then skipFiller true rest
    else if isBlank c || c = '\n' then skipFiller false rest
    else c :: rest

/-- The elements of an array up to its bracket. A comma may stand after the last one. -/
def readElements (item : Reader Datum) : Nat → Reader (List Datum)
  | 0, _ => none
  | bound + 1, cs =>
    match skipFiller false cs with
    | ']' :: rest => some ([], rest)
    | cs =>
      match item cs with
      | none => none
      | some (datum, rest) =>
        match skipFiller false rest with
        | ',' :: rest => withFirst datum (readElements item bound rest)
        | ']' :: rest => some ([datum], rest)
        | _ => none

def readArray (item : Reader Datum) (cs : List Char) : Option (Datum × List Char) :=
  (readElements item (cs.length + 1) cs).map fun (items, rest) => (.array items, rest)

def readPair (item : Reader Datum) (cs : List Char) : Option ((Key × Datum) × List Char) :=
  match readKey cs with
  | some (key, '=' :: rest) =>
    (item (skipBlanks rest)).map fun (datum, rest) => ((key, datum), rest)
  | _ => none

def readPairs (item : Reader Datum) : Nat → Reader (List (Key × Datum))
  | 0, _ => none
  | bound + 1, cs =>
    match readPair item cs with
    | none => none
    | some (pair, rest) =>
      match skipBlanks rest with
      | ',' :: rest => withFirst pair (readPairs item bound rest)
      | '\x7d' :: rest => some ([pair], rest)
      | _ => none

/-- The table that pairs make together, each set under the rules of dotted keys. -/
def tableOf? (pairs : List (Key × Datum)) : Option Datum :=
  (pairs.foldlM (fun entries pair => Entries.assign pair.1.2 pair.2 pair.1.1 entries) []).map
    fun entries => .table (finishEntries entries)

def readInlineTable (item : Reader Datum) (cs : List Char) : Option (Datum × List Char) :=
  match skipBlanks cs with
  | '\x7d' :: rest => some (.table [], rest)
  | cs =>
    match readPairs item (cs.length + 1) cs with
    | none => none
    | some (pairs, rest) => (tableOf? pairs).map (·, rest)

def readPlainDatum (cs : List Char) : Option (Datum × List Char) :=
  match readMoment cs with
  | some read => some read
  | none => readNumber cs

/-- A value in which at most so many arrays and inline tables nest. -/
def readDatumWithin : Nat → Reader Datum
  | depth, cs =>
    match cs, depth with
    | 't' :: 'r' :: 'u' :: 'e' :: rest, _ => some (.boolean true, rest)
    | 'f' :: 'a' :: 'l' :: 's' :: 'e' :: rest, _ => some (.boolean false, rest)
    | '[' :: rest, depth + 1 => readArray (readDatumWithin depth) rest
    | '\x7b' :: rest, depth + 1 => readInlineTable (readDatumWithin depth) rest
    | cs, _ =>
      match readText cs with
      | some (s, rest) => some (.string s, rest)
      | none => readPlainDatum cs

def readDatum : Reader Datum := readDatumWithin nestingLimit

/-! ## Lines -/

/-- What follows the end of a line, before which blanks and a comment may stand. -/
def afterLine? (cs : List Char) : Option (List Char) :=
  let rest := match skipBlanks cs with
    | '#' :: rest => rest.dropWhile isPlain
    | cs => cs
  match rest with
  | [] => some []
  | c :: rest => if c = '\n' then some rest else none

def readHeader (closing : List Char) (cs : List Char) : Option (Key × List Char) :=
  match readKey cs with
  | some (key, rest) =>
    if closing.isPrefixOf rest then some (key, rest.drop closing.length) else none
  | none => none

def Draft.step {α : Type} (change : α → Option Draft) (read : Option (α × List Char)) :
    Option (Draft × List Char) :=
  match read with
  | none => none
  | some (a, rest) =>
    match change a, afterLine? rest with
    | some draft, some rest => some (draft, rest)
    | _, _ => none

def Draft.readLine (draft : Draft) (cs : List Char) : Option (Draft × List Char) :=
  match cs with
  | '[' :: '[' :: rest =>
    Draft.step (fun key => draft.openElement key.1 key.2) (readHeader [']', ']'] rest)
  | '[' :: rest => Draft.step (fun key => draft.openTable key.1 key.2) (readHeader [']'] rest)
  | cs => Draft.step (fun pair => draft.assign pair.1.1 pair.1.2 pair.2) (readPair readDatum cs)

def Draft.readLines : Nat → Draft → List Char → Option Draft
  | 0, _, _ => none
  | bound + 1, draft, cs =>
    match skipBlanks cs with
    | [] => some draft
    | cs =>
      match afterLine? cs with
      | some rest => draft.readLines bound rest
      | none =>
        match draft.readLine cs with
        | some (draft, rest) => draft.readLines bound rest
        | none => none

/-- Makes line ends uniform: a carriage return before a line feed is dropped. -/
def uniformLines : List Char → List Char
  | '\r' :: '\n' :: rest => '\n' :: uniformLines rest
  | c :: rest => c :: uniformLines rest
  | [] => []

def withoutMark : List Char → List Char
  | c :: rest => if c = '\ufeff' then rest else c :: rest
  | [] => []

def read? (text : String) : Option (List (String × Datum)) :=
  let cs := uniformLines (withoutMark text.toList)
  (Draft.empty.readLines (cs.length + 1) cs).map Draft.finish

end HostBridge.Document
