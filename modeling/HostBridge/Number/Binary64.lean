/-! # Binary64 numbers

A number is its 64 bits: sign, eleven bits of exponent, 52 bits of fraction. Equality is that of the
standard: a NaN equals nothing and the two zeros are equal. Rounding works on natural numbers only,
to nearest with ties to even.
-/
namespace HostBridge

/-- A binary64 number, as its bits. Two of them are identical when their bits are. -/
structure Binary64 where
  bits : UInt64
deriving DecidableEq

namespace Binary64

def signWeight : Nat := 0x8000000000000000

def exponentWeight : Nat := 0x10000000000000

def isNegative (x : Binary64) : Bool := signWeight ≤ x.bits.toNat

def exponentField (x : Binary64) : Nat := x.bits.toNat / exponentWeight % 2048

def fraction (x : Binary64) : Nat := x.bits.toNat % exponentWeight

def isNaN (x : Binary64) : Bool := x.exponentField = 2047 ∧ x.fraction ≠ 0

def isInfinite (x : Binary64) : Bool := x.exponentField = 2047 ∧ x.fraction = 0

def isZero (x : Binary64) : Bool := x.exponentField = 0 ∧ x.fraction = 0

/-- Equality of the standard, not of the bits. -/
def eq (x y : Binary64) : Bool :=
  !x.isNaN && !y.isNaN && (x = y || (x.isZero && y.isZero))

/-- The number is different from zero; a NaN is. -/
def isNonzero (x : Binary64) : Bool := !x.isZero

/-- A finite number is `significand · 2 ^ exponent`, up to its sign. -/
def significand (x : Binary64) : Nat :=
  if x.exponentField = 0 then x.fraction else x.fraction + exponentWeight

def exponent (x : Binary64) : Int := (max 1 x.exponentField : Nat) - 1075

def ofMagnitude (negative : Bool) (magnitude : Nat) : Binary64 :=
  ⟨UInt64.ofNat ((if negative then signWeight else 0) + magnitude)⟩

def infinityMagnitude : Nat := 2047 * exponentWeight

/-- The quotient rounded to nearest, a tie to the even neighbour. -/
def roundQuotient (num den : Nat) : Nat :=
  let quotient := num / den
  let rest := num % den
  if den < 2 * rest ∨ (2 * rest = den ∧ quotient % 2 = 1) then quotient + 1 else quotient

/-- The exponent of the last place of `num / den`: the one that leaves 53 bits before the point, and
no less than that of the smallest positive number. -/
def lastPlace (num den : Nat) : Int :=
  let guess : Int := (num.log2 : Int) - den.log2 - 52
  let short : Bool := num * Nat.pow 2 (-guess).toNat < den * Nat.pow 2 guess.toNat * exponentWeight
  max (if short then guess - 1 else guess) (-1074)

/-- The number nearest to `num / den`. The last place and the rounded count of last places together
are the bits: a count that rounds up to the next power of two carries into the exponent. -/
def nearest (negative : Bool) (num den : Nat) : Binary64 :=
  if num = 0 then ofMagnitude negative 0
  else
    let place := lastPlace num den
    let count := roundQuotient (num * Nat.pow 2 (-place).toNat) (den * Nat.pow 2 place.toNat)
    ofMagnitude negative (min ((place + 1074).toNat * exponentWeight + count) infinityMagnitude)

def ofInt (i : Int) : Binary64 := nearest (i < 0) i.natAbs 1

/-- The number nearest to `digits · 10 ^ scale`. Beyond four hundred places on either side of the
point the answer is known without the power. -/
def ofDecimal (negative : Bool) (digits : Nat) (scale : Int) : Binary64 :=
  if digits = 0 then ofMagnitude negative 0
  else if 400 < scale then ofMagnitude negative infinityMagnitude
  else if scale + (Nat.toDigits 10 digits).length < -400 then ofMagnitude negative 0
  else nearest negative (digits * Nat.pow 10 scale.toNat) (Nat.pow 10 (-scale).toNat)

/-- The one NaN that is ever made. -/
def nan : Binary64 := ⟨0x7ff8000000000000⟩

def infinity (negative : Bool) : Binary64 := ofMagnitude negative infinityMagnitude

end Binary64

end HostBridge
