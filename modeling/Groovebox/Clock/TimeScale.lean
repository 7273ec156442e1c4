/-! # Time scales

The timing code works over any type of numbers that can measure seconds.  The program runs on
machine floats; the laws of the timing grid are laws of exact numbers, and hold at `Rat`.
-/

namespace Groovebox

/-- Numbers that measure seconds. -/
class TimeScale (τ : Type) extends Add τ, Sub τ, Mul τ, Div τ, LT τ, LE τ where
  /-- A whole number of seconds. -/
  ofNat : Nat → τ
  /-- Neither infinite nor undefined. -/
  isFinite : τ → Bool
  /-- The least natural number at or above a number; 0 if that would be negative. -/
  ceilNat : τ → Nat
  /-- The nearest natural number, a half rounded up; 0 if that would be negative. -/
  roundNat : τ → Nat
  decidableLT : DecidableLT τ
  decidableLE : DecidableLE τ

namespace TimeScale

instance {τ : Type} [TimeScale τ] (a b : τ) : Decidable (a < b) := decidableLT a b

instance {τ : Type} [TimeScale τ] (a b : τ) : Decidable (a ≤ b) := decidableLE a b

/-- Machine floats; conversions stop at the largest 64-bit word, and what is not a number becomes
0. -/
instance : TimeScale Float where
  ofNat := Float.ofNat
  isFinite := Float.isFinite
  ceilNat x := x.ceil.toUInt64.toNat
  roundNat x := x.round.toUInt64.toNat
  decidableLT := inferInstance
  decidableLE := inferInstance

/-- Exact numbers. -/
instance : TimeScale Rat where
  ofNat n := n
  isFinite _ := true
  ceilNat x := x.ceil.toNat
  roundNat x := (x + 1 / 2).floor.toNat
  decidableLT := inferInstance
  decidableLE := inferInstance

variable {τ : Type} [TimeScale τ]

/-- The later of two times.  A time that is undefined compares with nothing, itself included, and
the other one is taken. -/
def latest (a b : τ) : τ :=
  if a < b then b else if a ≤ a then a else b

/-- More steps of a length than fit into a span, be the sums that place them rounded or exact. -/
def stepBound (span length : τ) : Nat :=
  4 * ceilNat (span / length) + 4

end TimeScale

end Groovebox
