/-! # The shortest decimal of a binary number

A positive number `m · 2 ^ q` stands for every real that rounds to it. Of the decimals among those
the ones with the fewest digits are taken, and of these the nearest to the number itself; between
two equally near ones the caller decides. Everything is compared in natural numbers.
-/
namespace HostBridge.Shortest

structure Decimal where
  digits : Nat
  scale : Int
deriving DecidableEq, Repr

inductive Tie where
  | away
  | even
deriving DecidableEq, Repr

/-- The reals that round to `m · 2 ^ q`, in quarters of the last place: the number and both ends.
Below a power of two the gap is half as wide, but for the one where the smallest gaps end; the ends
belong to the interval when `m` is even. -/
structure Interval where
  low : Nat
  mid : Nat
  high : Nat
  closed : Bool
deriving DecidableEq, Repr

def Interval.of (m : Nat) (q : Int) : Interval where
  low := if m = 0x10000000000000 ∧ q ≠ -1074 then 4 * m - 1 else 4 * m - 2
  mid := 4 * m
  high := 4 * m + 2
  closed := m % 2 = 0

def Interval.holds (i : Interval) (unit step count : Nat) : Bool :=
  if i.closed then i.low * unit ≤ count * step && count * step ≤ i.high * unit
  else i.low * unit < count * step && count * step < i.high * unit

def Interval.nearer (i : Interval) (tie : Tie) (unit step count : Nat) : Nat :=
  let below := i.mid * unit - count * step
  let above := (count + 1) * step - i.mid * unit
  if below < above then count
  else if above < below then count + 1
  else match tie with
    | .away => count + 1
    | .even => if count % 2 = 0 then count else count + 1

/-- The point of the grid `10 ^ scale` to be taken, if one lies in the interval of `m · 2 ^ q`. Only
the two neighbours of the number can be it. -/
def onGrid (tie : Tie) (m : Nat) (q scale : Int) : Option Nat :=
  let i := Interval.of m q
  let unit := Nat.pow 2 (q - 2).toNat * Nat.pow 10 (-scale).toNat
  let step := Nat.pow 2 (2 - q).toNat * Nat.pow 10 scale.toNat
  let count := i.mid * unit / step
  match i.holds unit step count, i.holds unit step (count + 1) with
  | true, true => some (i.nearer tie unit step count)
  | true, false => some count
  | false, true => some (count + 1)
  | false, false => none

def leadingPlace (num den : Nat) : Int :=
  if den ≤ num then (Nat.toDigits 10 (num / den)).length - 1
  else
    let places := (Nat.toDigits 10 (den / num)).length
    if den ≤ num * Nat.pow 10 (places - 1) then 1 - (places : Int) else -(places : Int)

/-- The grids from one digit to seventeen, coarsest first. Seventeen digits always suffice. -/
def grids (place : Int) : List Int := (List.range 17).map fun n : Nat => place - n

/-- The shortest decimal of `m · 2 ^ q` with `m` positive. Ten units of the coarsest grid are one of
the next coarser. -/
def decimal (tie : Tie) (m : Nat) (q : Int) : Decimal :=
  let place := leadingPlace (m * Nat.pow 2 q.toNat) (Nat.pow 2 (-q).toNat)
  let found := (grids place).findSome? fun scale =>
    (onGrid tie m q scale).map fun count => Decimal.mk count scale
  match found with
  | some d => if d.digits = 10 then ⟨1, d.scale + 1⟩ else d
  | none => ⟨m, q⟩

end HostBridge.Shortest
