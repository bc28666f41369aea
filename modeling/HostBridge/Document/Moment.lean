import HostBridge.Document.Datum

/-! # Dates and times in a document

A calendar date, a time of day, or both with an optional offset. Only the written form is checked:
the date has to exist, and the seconds are never left out.
-/
namespace HostBridge.Document

def fixedDigits : Nat → Nat → Reader Nat
  | 0, n, cs => some (n, cs)
  | count + 1, n, c :: rest =>
    if c.isDigit then fixedDigits count (10 * n + (c.toNat - 48)) rest else none
  | _ + 1, _, [] => none

def twoDigits (low high : Nat) (cs : List Char) : Option (Nat × List Char) :=
  (fixedDigits 2 0 cs).filter fun (n, _) => low ≤ n && n ≤ high

def after? (mark : Char) : List Char → Option (List Char)
  | c :: rest => if c = mark then some rest else none
  | [] => none

def isLeapYear (year : Nat) : Bool := year % 4 = 0 && (year % 100 != 0 || year % 400 = 0)

def daysIn (year month : Nat) : Nat :=
  if month = 2 then if isLeapYear year then 29 else 28
  else if month = 4 ∨ month = 6 ∨ month = 9 ∨ month = 11 then 30
  else 31

def afterDate? (cs : List Char) : Option (List Char) := do
  let (year, rest) ← fixedDigits 4 0 cs
  let (month, rest) ← (after? '-' rest).bind (twoDigits 1 12)
  let (_, rest) ← (after? '-' rest).bind (twoDigits 1 (daysIn year month))
  some rest

def afterFraction : List Char → List Char
  | '.' :: c :: rest => if c.isDigit then rest.dropWhile Char.isDigit else '.' :: c :: rest
  | cs => cs

/-- What follows a time of day. A minute may have a leap second. -/
def afterTime? (cs : List Char) : Option (List Char) := do
  let (_, rest) ← twoDigits 0 23 cs
  let (_, rest) ← (after? ':' rest).bind (twoDigits 0 59)
  let (_, rest) ← (after? ':' rest).bind (twoDigits 0 60)
  some (afterFraction rest)

def afterOffset? : List Char → Option (List Char)
  | c :: rest =>
    if c = 'Z' || c = 'z' then some rest
    else if c = '+' || c = '-' then do
      let (_, rest) ← twoDigits 0 23 rest
      let (_, rest) ← (after? ':' rest).bind (twoDigits 0 59)
      some rest
    else none
  | [] => none

def afterDateTime? : List Char → Option (List Char)
  | c :: rest =>
    if c = 'T' || c = 't' || c = ' ' then
      (afterTime? rest).map fun rest => (afterOffset? rest).getD rest
    else none
  | [] => none

def readMoment (cs : List Char) : Option (Datum × List Char) :=
  match afterDate? cs with
  | some rest => some (.moment, (afterDateTime? rest).getD rest)
  | none => (afterTime? cs).map (.moment, ·)

end HostBridge.Document
