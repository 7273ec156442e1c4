/-! # Shortest decimals

A machine float stands for the interval of numbers that round to it.  Its shortest decimal is the
point of the coarsest decimal grid that lies in this interval; of two such points the nearer one is
taken, and of two equally near ones the upper.
-/

namespace Groovebox

/-! ## Binary floats -/

/-- A positive float as `significand * 2 ^ exponent`. -/
structure Binary where
  significand : Nat
  exponent : Int
  /-- The gap to the float below is half as wide as the gap to the float above. -/
  narrowBelow : Bool
deriving DecidableEq, Repr

namespace Binary

/-- Reads the magnitude of a finite float from its bits, given the width of the stored significand
and the exponent of the least positive float. -/
def ofBits (width : Nat) (least : Int) (exponentMask bits : Nat) : Binary :=
  let stored := bits % Nat.pow 2 width
  let biased := bits / Nat.pow 2 width % (exponentMask + 1)
  if biased = 0 then ⟨stored, least, false⟩
  else ⟨Nat.pow 2 width + stored, least + biased - 1, stored == 0 && 1 < biased⟩

/-- The magnitude of a finite double. -/
def ofFloat (x : Float) : Binary :=
  ofBits 52 (-1074) 0x7FF x.toBits.toNat

/-- The magnitude of a finite single. -/
def ofFloat32 (x : Float32) : Binary :=
  ofBits 23 (-149) 0xFF x.toBits.toNat

end Binary

/-! ## Decimals -/

/-- The number `digits * 10 ^ exponent`. -/
structure Decimal where
  digits : Nat
  exponent : Int
deriving DecidableEq, Repr

/-- Compares `a * 10 ^ i` with `b * 2 ^ j`. -/
def compareScaled (a : Nat) (i : Int) (b : Nat) (j : Int) : Ordering :=
  compare (a * Nat.pow 10 i.toNat * Nat.pow 2 (-j).toNat)
    (b * Nat.pow 2 j.toNat * Nat.pow 10 (-i).toNat)

namespace Binary

/-- Whether a decimal rounds to a float: it lies between the midpoints to the two neighbours, which
themselves round to the float with the even significand. -/
def readsBack (x : Binary) (d : Decimal) : Bool :=
  let below := if x.narrowBelow then 4 * x.significand - 1 else 4 * x.significand - 2
  let above := 4 * x.significand + 2
  let even := x.significand % 2 == 0
  let low := compareScaled d.digits d.exponent below (x.exponent - 2)
  let high := compareScaled d.digits d.exponent above (x.exponent - 2)
  (low == .gt || (even && low == .eq)) && (high == .lt || (even && high == .eq))

/-- The float divided by `10 ^ exponent`, as a fraction of naturals. -/
def overTen (x : Binary) (exponent : Int) : Nat × Nat :=
  (x.significand * Nat.pow 2 x.exponent.toNat * Nat.pow 10 (-exponent).toNat,
    Nat.pow 2 (-x.exponent).toNat * Nat.pow 10 exponent.toNat)

/-- The neighbour of the float on a decimal grid that reads back, the nearer one if both do. -/
def onGrid? (x : Binary) (exponent : Int) : Option Decimal :=
  let (num, den) := x.overTen exponent
  let low : Decimal := ⟨num / den, exponent⟩
  let high : Decimal := ⟨num / den + 1, exponent⟩
  match x.readsBack low, x.readsBack high with
  | true, true => if 2 * num < (2 * low.digits + 1) * den then some low else some high
  | true, false => some low
  | false, true => some high
  | false, false => none

/-- The float itself as a decimal. -/
def exact (x : Binary) : Decimal :=
  ⟨x.significand * Nat.pow 2 x.exponent.toNat * Nat.pow 5 (-x.exponent).toNat, min x.exponent 0⟩

/-- Tries the grids from one exponent downwards. -/
def searchGrids (x : Binary) : Nat → Int → Decimal
  | 0, _ => x.exact
  | fuel + 1, exponent => (x.onGrid? exponent).getD (searchGrids x fuel (exponent - 1))

/-- A power of ten above the float. -/
def topExponent (x : Binary) : Int :=
  let size : Int := x.significand.log2 + 1 + x.exponent
  if 0 ≤ size then size * 31 / 100 + 1 else size * 30 / 100 + 1

/-- The shortest decimal that reads back as the float. -/
def shortest (x : Binary) : Decimal :=
  if x.significand = 0 then ⟨0, 0⟩ else x.searchGrids 48 x.topExponent

end Binary

end Groovebox
