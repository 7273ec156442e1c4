import Groovebox.Decimal.Shortest

/-! # The text of numbers

A decimal is written positionally, or with an exponent.  Floats are written with their shortest
digits, so that the text reads back as the same float.
-/

namespace Groovebox

namespace Decimal

/-- Writes a decimal positionally, with at least one digit on each side of the point. -/
def positional (d : Decimal) : List Char :=
  let digits := Nat.toDigits 10 d.digits
  if 0 ≤ d.exponent then digits ++ List.replicate d.exponent.toNat '0' ++ ['.', '0']
  else
    let places := (-d.exponent).toNat
    let padded := List.replicate (places + 1 - digits.length) '0' ++ digits
    let whole := padded.length - places
    padded.take whole ++ ['.'] ++ padded.drop whole

/-- Writes a decimal as one digit, the others behind a point, and a power of ten. -/
def scientific (d : Decimal) : List Char :=
  match Nat.toDigits 10 d.digits with
  | [] => []
  | first :: others =>
    let power := d.exponent + others.length
    first :: (if others.isEmpty then [] else '.' :: others) ++ ['e'] ++ (toString power).toList

end Decimal

/-- How the magnitude of a finite float is written. -/
inductive NumberStyle where
  /-- Always positionally. -/
  | plain
  /-- With an exponent when the magnitude is at least the float of `10 ^ 16`, or less than the float
  of `10 ^ -4` and not zero. -/
  | compact
deriving DecidableEq, Repr

/-- Writes the magnitude of a finite float; `outside` tells whether it lies outside the range that a
compact text writes positionally. -/
def Binary.magnitudeText (x : Binary) (style : NumberStyle) (outside : Bool) : List Char :=
  if style == .compact && outside then x.shortest.scientific else x.shortest.positional

/-- Puts a sign before a magnitude. -/
def signed (negative : Bool) (magnitude : List Char) : String :=
  String.ofList (if negative then '-' :: magnitude else magnitude)

/-- Whether a double carries a minus sign, as a zero also may. -/
def hasMinus (x : Float) : Bool :=
  x.toBits >>> 63 == 1

/-- The text of a double; `undefined` is the word for what is not a number. -/
def doubleText (x : Float) (style : NumberStyle) (undefined : String) : String :=
  if x.isNaN then undefined
  else
    if x.isInf then signed (hasMinus x) ['i', 'n', 'f']
    else
      let outside : Bool := 1e16 ≤ x.abs || (x.abs < 1e-4 && x != 0)
      signed (hasMinus x) ((Binary.ofFloat x).magnitudeText style outside)

/-- The text of a single; `undefined` is the word for what is not a number. -/
def singleText (x : Float32) (style : NumberStyle) (undefined : String) : String :=
  if x.isNaN then undefined
  else
    let negative := x.toBits >>> 31 == 1
    if x.isInf then signed negative ['i', 'n', 'f']
    else
      let outside : Bool := 1e16 ≤ x.abs || (x.abs < 1e-4 && x != 0)
      signed negative ((Binary.ofFloat32 x).magnitudeText style outside)

end Groovebox
