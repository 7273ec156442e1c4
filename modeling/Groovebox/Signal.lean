/-! # Signals

What the instruments make their sound with: levels, white noise and a lowpass filter.
-/

namespace Groovebox

/-! ## Levels

Bounds on signal levels, and levels in decibels.  What is not a number gives way to the bound.
-/

namespace Signal

/-- The full turn of a sine. -/
def turn : Float := 6.283185307179586

/-- A number raised to a lower bound. -/
def atLeast (bound x : Float) : Float :=
  if bound < x then x else bound

/-- A number lowered to an upper bound. -/
def atMost (bound x : Float) : Float :=
  if x < bound then x else bound

/-- The greater of a peak so far and the magnitude of one more sample. -/
def peakWith (peak sample : Float32) : Float32 :=
  if peak < sample.abs then sample.abs else peak

/-- The amplitude of a level in decibels. -/
def amplitude (db : Float32) : Float32 :=
  Float32.exp (db / 20 * 2.302585092994046)

end Signal

/-! ## Noise

White noise comes from a generator with a 64-bit state.  Each draw adds a constant to the state and
folds the 128-bit product of the state with a scrambled copy of itself into one word.
-/

/-- A noise generator. -/
structure Noise where
  state : UInt64
deriving DecidableEq, Repr

namespace Noise

/-- The state after one draw. -/
def next (noise : Noise) : Noise :=
  ⟨noise.state + 0x2d358dccaa6c78a5⟩

/-- The word that a state gives. -/
def word (noise : Noise) : UInt64 :=
  let product := noise.state.toNat * (noise.state ^^^ 0x8bb84b93962eacc9).toNat
  UInt64.ofNat product ^^^ UInt64.ofNat (product / Nat.pow 2 64)

/-- A number from 0 up to 1: the upper 52 bits of a word become the fraction of a float. -/
def unit (noise : Noise) : Float :=
  Float.ofBits ((0x3ff0000000000000 : UInt64) + (noise.word >>> 12)) - 1.0

/-- One draw from −1 up to 1. -/
def draw (noise : Noise) : Float × Noise :=
  (noise.next.unit * 2.0 - 1.0, noise.next)

end Noise

/-! ## Lowpass filter

A state variable filter with two integrators.  A new sample rate gives new coefficients and keeps
what the integrators hold.
-/

/-- A lowpass filter: its settings, its coefficients and its two integrators. -/
structure Lowpass where
  cutoff : Float
  resonance : Float
  a1 : Float
  a2 : Float
  a3 : Float
  ic1 : Float
  ic2 : Float

namespace Lowpass

/-- The filter with coefficients for a sample rate. -/
def setRate (filter : Lowpass) (rate : Float) : Lowpass :=
  let g := Float.tan (3.141592653589793 * filter.cutoff / rate)
  let k := 1.0 / filter.resonance
  let a1 := 1.0 / (1.0 + g * (g + k))
  let a2 := g * a1
  { filter with a1 := a1, a2 := a2, a3 := g * a2 }

/-- A filter at rest. -/
def new (cutoff resonance rate : Float) : Lowpass :=
  (Lowpass.mk cutoff resonance 0 0 0 0 0).setRate rate

/-- Filters one sample. -/
def tick (filter : Lowpass) (input : Float) : Float × Lowpass :=
  let v3 := input - filter.ic2
  let v1 := filter.a1 * filter.ic1 + filter.a2 * v3
  let v2 := filter.ic2 + filter.a2 * filter.ic1 + filter.a3 * v3
  (v2, { filter with ic1 := 2.0 * v1 - filter.ic1, ic2 := 2.0 * v2 - filter.ic2 })

end Lowpass

end Groovebox
