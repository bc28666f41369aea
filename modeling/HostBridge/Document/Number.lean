import HostBridge.Document.Datum
import HostBridge.Document.Text

/-! # Numbers in a document

Integers in four bases and floating-point numbers. Single underscores may stand between digits. An
integer beyond 64 bits is refused, and so is a number that overflows upwards.
-/
namespace HostBridge.Document

/-- Further digits of a number; an underscore has to stand between two of them. -/
def moreDigits (isDigit : Char → Bool) : Reader (List Char)
  | [] => some ([], [])
  | '_' :: c :: rest => if isDigit c then withFirst c (moreDigits isDigit rest) else none
  | c :: rest =>
    if c = '_' then none
    else if isDigit c then withFirst c (moreDigits isDigit rest)
    else some ([], c :: rest)

def digits (isDigit : Char → Bool) : Reader (List Char)
  | c :: rest => if isDigit c then withFirst c (moreDigits isDigit rest) else none
  | [] => none

def wholeDigits : Reader (List Char)
  | '0' :: rest => some (['0'], rest)
  | cs => digits Char.isDigit cs

def valueOf (base : Nat) (ds : List Char) : Nat :=
  ds.foldl (fun n c => base * n + (TextForm.hexDigit? c).getD 0) 0

def readSign : List Char → Bool × List Char
  | '-' :: rest => (true, rest)
  | '+' :: rest => (false, rest)
  | cs => (false, cs)

def integerOf? (negative : Bool) (n : Nat) : Option Datum :=
  let i : Int := if negative then -n else n
  if Int64.minValue.toInt ≤ i ∧ i ≤ Int64.maxValue.toInt then some (.integer (Int64.ofInt i))
  else none

def readFraction : List Char → Option (Option (List Char) × List Char)
  | '.' :: rest => (digits Char.isDigit rest).map fun (ds, rest) => (some ds, rest)
  | cs => some (none, cs)

def readExponent : List Char → Option (Option Int × List Char)
  | c :: rest =>
    if c = 'e' || c = 'E' then
      let (negative, unsigned) := readSign rest
      (digits Char.isDigit unsigned).map fun (ds, rest) =>
        (some (if negative then -(valueOf 10 ds : Int) else valueOf 10 ds), rest)
    else some (none, c :: rest)
  | [] => some (none, [])

/-- A floating-point number that does not overflow upwards. -/
def floatOf? (x : Binary64) : Option Datum :=
  if x = Binary64.infinity false then none else some (.float x)

/-- The datum of a decimal number: it is an integer if it has neither a fraction nor an exponent. -/
def decimalOf? (negative : Bool) (ds : List Char) (fraction : Option (List Char))
    (exponent : Option Int) : Option Datum :=
  if fraction.isNone && exponent.isNone then integerOf? negative (valueOf 10 ds)
  else
    let places := fraction.getD []
    floatOf? (Binary64.ofDecimal negative (valueOf 10 (ds ++ places))
      (exponent.getD 0 - places.length))

def readDecimal (negative : Bool) (cs : List Char) : Option (Datum × List Char) :=
  match wholeDigits cs with
  | none => none
  | some (ds, rest) =>
    match readFraction rest with
    | none => none
    | some (fraction, rest) =>
      match readExponent rest with
      | none => none
      | some (exponent, rest) => (decimalOf? negative ds fraction exponent).map (·, rest)

def isHexDigit (c : Char) : Bool := (TextForm.hexDigit? c).isSome

def isOctalDigit (c : Char) : Bool := '0' ≤ c && c ≤ '7'

def isBinaryDigit (c : Char) : Bool := c = '0' || c = '1'

/-- An integer in another base, after what announces the base. It has no sign. -/
def readBased (base : Nat) (isDigit : Char → Bool) (cs : List Char) : Option (Datum × List Char) :=
  match digits isDigit cs with
  | none => none
  | some (ds, rest) => (integerOf? false (valueOf base ds)).map (·, rest)

def readSigned (cs : List Char) : Option (Datum × List Char) :=
  let (negative, unsigned) := readSign cs
  match unsigned with
  | 'i' :: 'n' :: 'f' :: rest => some (.float (Binary64.infinity negative), rest)
  | 'n' :: 'a' :: 'n' :: rest => some (.float Binary64.nan, rest)
  | _ => readDecimal negative unsigned

def readNumber : Reader Datum
  | '0' :: 'x' :: rest => readBased 16 isHexDigit rest
  | '0' :: 'o' :: rest => readBased 8 isOctalDigit rest
  | '0' :: 'b' :: rest => readBased 2 isBinaryDigit rest
  | cs => readSigned cs

end HostBridge.Document
