import HostBridge.Document.Datum

/-! # Texts in a document

A text stands between quotes in one of four forms: double quotes allow escapes and single quotes do
not, three quotes allow line ends and one does not. Reading works through the characters once, with
what is pending; line ends have been made uniform before.
-/
namespace HostBridge.Document

def isBlank (c : Char) : Bool := c = ' ' || c = '\t'

def isPlain (c : Char) : Bool := c = '\t' || (0x20 ≤ c.toNat && c.toNat != 0x7f)

structure TextForm where
  quote : Char
  escapes : Bool
  multiline : Bool
deriving DecidableEq, Repr

namespace TextForm

def basic : TextForm := ⟨'"', true, false⟩
def literal : TextForm := ⟨'\'', false, false⟩
def multilineBasic : TextForm := ⟨'"', true, true⟩
def multilineLiteral : TextForm := ⟨'\'', false, true⟩

/-- The closing quotes, if the text is at them. Three quotes close a text of several lines; up to
two before them belong to the text. -/
def close? (form : TextForm) (cs : List Char) : Option (List Char × List Char) :=
  let count := (cs.takeWhile (· = form.quote)).length
  if form.multiline then
    if count < 3 then none
    else some (List.replicate (min count 5 - 3) form.quote, cs.drop (min count 5))
  else if count = 0 then none
  else some ([], cs.drop 1)

def allows (form : TextForm) (c : Char) : Bool := isPlain c || (form.multiline && c = '\n')

def escapeOf? (c : Char) : Option Char :=
  if c = 'b' then some '\x08'
  else if c = 't' then some '\t'
  else if c = 'n' then some '\n'
  else if c = 'f' then some '\x0c'
  else if c = 'r' then some '\r'
  else if c = '"' then some '"'
  else if c = '\\' then some '\\'
  else none

def hexDigit? (c : Char) : Option Nat :=
  if '0' ≤ c ∧ c ≤ '9' then some (c.toNat - 48)
  else if 'a' ≤ c ∧ c ≤ 'f' then some (c.toNat - 87)
  else if 'A' ≤ c ∧ c ≤ 'F' then some (c.toNat - 55)
  else none

def charOf? (n : Nat) : Option Char := if n.isValidChar then some (Char.ofNat n) else none

/-- What a reader of a text is in the middle of. -/
inductive Pending where
  | nothing
  | trimming
  | escape
  /-- After a backslash and blanks: a line end has to follow. -/
  | joining
  /-- So many more hexadecimal digits, after those that make the value. -/
  | digits (more value : Nat)
deriving DecidableEq, Repr

inductive Role where
  /-- The text is closed, with some last characters of its own. -/
  | closes (last rest : List Char)
  | escapes
  | stands
  | refused

def roleOf (form : TextForm) (c : Char) (rest : List Char) : Role :=
  match form.close? (c :: rest) with
  | some (last, rest) => .closes last rest
  | none =>
    if form.escapes && c = '\\' then .escapes
    else if form.allows c then .stands
    else .refused

def body (form : TextForm) : Pending → Reader (List Char)
  | _, [] => none
  | .nothing, c :: rest =>
    match form.roleOf c rest with
    | .closes last rest => some (last, rest)
    | .escapes => body form .escape rest
    | .stands => withFirst c (body form .nothing rest)
    | .refused => none
  | .trimming, c :: rest =>
    if isBlank c || c = '\n' then body form .trimming rest
    else match form.roleOf c rest with
      | .closes last rest => some (last, rest)
      | .escapes => body form .escape rest
      | .stands => withFirst c (body form .nothing rest)
      | .refused => none
  | .escape, c :: rest =>
    if form.multiline && isBlank c then body form .joining rest
    else if form.multiline && c = '\n' then body form .trimming rest
    else if c = 'u' then body form (.digits 4 0) rest
    else if c = 'U' then body form (.digits 8 0) rest
    else match escapeOf? c with
      | some c => withFirst c (body form .nothing rest)
      | none => none
  | .joining, c :: rest =>
    if isBlank c then body form .joining rest
    else if c = '\n' then body form .trimming rest
    else none
  | .digits more value, c :: rest =>
    match hexDigit? c with
    | none => none
    | some d =>
      if more ≤ 1 then
        match charOf? (16 * value + d) with
        | some c => withFirst c (body form .nothing rest)
        | none => none
      else body form (.digits (more - 1) (16 * value + d)) rest

/-- The form of the text at the front, and what follows the opening quotes. A line end right after
three quotes does not belong to the text. -/
def open? : List Char → Option (TextForm × List Char)
  | '"' :: '"' :: '"' :: '\n' :: rest | '"' :: '"' :: '"' :: rest => some (multilineBasic, rest)
  | '"' :: rest => some (basic, rest)
  | '\'' :: '\'' :: '\'' :: '\n' :: rest | '\'' :: '\'' :: '\'' :: rest =>
    some (multilineLiteral, rest)
  | '\'' :: rest => some (literal, rest)
  | _ => none

end TextForm

def readText (cs : List Char) : Option (String × List Char) :=
  match TextForm.open? cs with
  | none => none
  | some (form, rest) => (form.body .nothing rest).map fun (s, rest) => (String.ofList s, rest)

end HostBridge.Document
