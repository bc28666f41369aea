import HostBridge.Number.Binary64
import HostBridge.Number.Shortest

/-! # Written numbers

Two ways of writing a number share the shortest digits that read back to it: values are written with
an exponent when they are very large or very small, configuration messages never are. A plain form
always shows a fraction.
-/
namespace HostBridge

open Shortest

/-- How numbers are written: which powers of ten of the leading digit are written plainly, and the
word for a NaN. -/
structure NumberStyle where
  plain : Int → Bool
  nan : String

namespace NumberStyle

/-- Values: plain from a ten-thousandth to below ten to the sixteenth. -/
def value : NumberStyle := ⟨fun place => -4 ≤ place && place < 16, "nan"⟩

/-- Messages about configuration entries: always plain. -/
def message : NumberStyle := ⟨fun _ => true, "NaN"⟩

end NumberStyle

namespace Shortest.Decimal

def place (d : Decimal) : Int := (Nat.toDigits 10 d.digits).length + d.scale - 1

/-- Digits around a point, padded with zeros where the digits do not reach it. -/
def plain (d : Decimal) : List Char :=
  let ds := Nat.toDigits 10 d.digits
  let point := ds.length + d.scale
  if 0 ≤ d.scale then ds ++ List.replicate d.scale.toNat '0' ++ ['.', '0']
  else if 0 < point then ds.take point.toNat ++ '.' :: ds.drop point.toNat
  else ['0', '.'] ++ List.replicate (-point).toNat '0' ++ ds

/-- One digit before the point, the rest after it, and the exponent. -/
def scientific (d : Decimal) : List Char :=
  let ds := Nat.toDigits 10 d.digits
  let fraction := if ds.length ≤ 1 then [] else '.' :: ds.drop 1
  ds.take 1 ++ fraction ++ 'e' :: (toString d.place).toList

end Shortest.Decimal

namespace Binary64

def magnitudeText (style : NumberStyle) (x : Binary64) : List Char :=
  if x.isZero then ['0', '.', '0']
  else
    let d := Shortest.decimal .away x.significand x.exponent
    if style.plain d.place then d.plain else d.scientific

/-- The number as it is written. A NaN has no sign. -/
def text (style : NumberStyle) (x : Binary64) : String :=
  if x.isNaN then style.nan
  else
    let sign := if x.isNegative then "-" else ""
    if x.isInfinite then sign ++ "inf" else sign ++ String.ofList (x.magnitudeText style)

end Binary64

end HostBridge
