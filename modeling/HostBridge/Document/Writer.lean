import HostBridge.Document.Text

/-! # Writing texts of a document

A text is written in the first form that shows it without escapes: double quotes, single quotes,
three double quotes, three single quotes. A text that needs escapes is written between double
quotes, three of them if it has several lines.
-/
namespace HostBridge.Document

def longestRun (x : Char) (cs : List Char) : Nat := go 0 cs
where
  go (run : Nat) : List Char → Nat
    | [] => run
    | c :: rest => if c = x then go (run + 1) rest else max run (go 0 rest)

/-- Control characters that no form can show. -/
def isHidden (c : Char) : Bool :=
  (c.toNat < 0x20 && c != '\t' && c != '\n') || c.toNat = 0x7f

namespace TextForm

/-- The form shows the text as it is. Between double quotes a backslash would be misread; three
quotes in a row would close a text of several lines, and one closes the others. -/
def shows (form : TextForm) (cs : List Char) : Bool :=
  !cs.any isHidden && !(form.escapes && cs.contains '\\') &&
    longestRun form.quote cs ≤ (if form.multiline then 2 else 0) &&
    (form.multiline || !cs.contains '\n')

def choose (cs : List Char) : TextForm :=
  if basic.shows cs then basic
  else if literal.shows cs then literal
  else if multilineBasic.shows cs then multilineBasic
  else if multilineLiteral.shows cs then multilineLiteral
  else if cs.contains '\n' then multilineBasic
  else basic

def codeEscape (c : Char) : List Char :=
  ['\\', 'u', '0', '0', digit (c.toNat / 16), digit (c.toNat % 16)]
where
  digit (n : Nat) : Char := (Nat.digitChar n).toUpper

def basicChar (multiline : Bool) (c : Char) : List Char :=
  if c = '\x08' then ['\\', 'b']
  else if c = '\t' then ['\\', 't']
  else if c = '\n' then if multiline then ['\n'] else ['\\', 'n']
  else if c = '\x0c' then ['\\', 'f']
  else if c = '\r' then ['\\', 'r']
  else if c = '\\' then ['\\', '\\']
  else if isHidden c then codeEscape c
  else [c]

/-- The characters of a text between double quotes. A quote is escaped, but two of them may stand in
a row where three close the text. The number counts the quotes just before. -/
def basicBody (multiline : Bool) : Nat → List Char → List Char
  | _, [] => []
  | quotes, c :: rest =>
    if c = '"' then
      if multiline && quotes < 2 then '"' :: basicBody multiline (quotes + 1) rest
      else '\\' :: '"' :: basicBody multiline 0 rest
    else basicChar multiline c ++ basicBody multiline 0 rest

def delimiter (form : TextForm) : List Char :=
  List.replicate (if form.multiline then 3 else 1) form.quote

/-- The text in a form. A text of several lines begins on a new one. -/
def write (form : TextForm) (cs : List Char) : List Char :=
  form.delimiter ++ (if form.multiline && cs.contains '\n' then ['\n'] else []) ++
    (if form.escapes then basicBody form.multiline 0 cs else cs) ++ form.delimiter

end TextForm

def writeText (s : String) : String :=
  String.ofList ((TextForm.choose s.toList).write s.toList)

end HostBridge.Document
