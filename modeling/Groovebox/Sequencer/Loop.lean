import Groovebox.Clock.StepClock
import Groovebox.Pattern

/-! # Loops

While the transport runs, a loop says which tick comes next and which step of the cycle it plays.
A loop can step over the ticks that a stalled host has missed, and hand out the ticks that lie
before a horizon.
-/

namespace Groovebox

/-! ## Ticks -/

/-- A tick handed out by a loop: its time, the step it plays and the set it plays it from. -/
structure Tick (τ : Type) where
  loopId : Nat
  time : τ
  step : Nat
  patterns : PatternSet
  /-- How long a note of the tick lasts. -/
  duration : τ
deriving DecidableEq, Repr

/-! ## Bounded searches -/

/-- Goes up from a number while a test holds, at most a given number of times. -/
def climb (test : Nat → Bool) : Nat → Nat → Nat
  | 0, n => n
  | fuel + 1, n => if test n then climb test fuel (n + 1) else n

/-- Goes down from a number while a test holds of the number below. -/
def descend (test : Nat → Bool) : Nat → Nat
  | 0 => 0
  | n + 1 => if test n then descend test n else n + 1

/-! ## Loops -/

/-- A running loop. -/
structure Loop (τ : Type) where
  id : Nat
  clock : StepClock τ
  /-- The first tick that has not been handed out. -/
  nextTick : Nat
  /-- The step of the cycle which that tick plays. -/
  nextStep : Nat
  /-- The set as it was when the loop began. -/
  patterns : PatternSet
  lastTick : Option Nat
deriving DecidableEq, Repr

namespace Loop

variable {τ : Type} [TimeScale τ]

/-- The time of the next tick. -/
def nextTime (loop : Loop τ) : τ :=
  loop.clock.timeOf loop.nextTick

/-- The number of steps in the loop's cycle. -/
def cycle (loop : Loop τ) : Nat :=
  loop.patterns.cycleLength

/-- The next tick as it is handed out. -/
def tick (loop : Loop τ) : Tick τ :=
  ⟨loop.id, loop.nextTime, loop.nextStep, loop.patterns, loop.clock.stepDuration⟩

/-- The loop after its next tick is handed out. -/
def advance (loop : Loop τ) : Loop τ :=
  { loop with
    nextTick := loop.nextTick + 1
    nextStep := (loop.nextStep + 1) % loop.cycle
    lastTick := some loop.nextTick }

/-- Steps over a number of ticks without handing them out. -/
def skip (loop : Loop τ) (count : Nat) : Loop τ :=
  { loop with
    nextTick := loop.nextTick + count
    nextStep := (loop.nextStep + count % loop.cycle) % loop.cycle }

/-- More ticks than lie before a time, from the next one on, be their times rounded or exact.  The
ticks up to the anchor all have the anchor's time. -/
def tickBound (loop : Loop τ) (time : τ) : Nat :=
  TimeScale.stepBound (time - loop.nextTime) loop.clock.stepDuration +
    (loop.clock.anchorTick - loop.nextTick)

/-- From a first guess, the number of ticks from the next one on that lie before a deadline; at
most `bound` is added to the guess. -/
def countBefore (loop : Loop τ) (deadline : τ) (bound guess : Nat) : Nat :=
  descend (fun n => deadline ≤ loop.clock.timeOf (loop.nextTick + n))
    (climb (fun n => loop.clock.timeOf (loop.nextTick + n) < deadline) bound guess)

/-- Steps over the ticks before a deadline, given a guess of their number. -/
def skipBeforeFrom (loop : Loop τ) (deadline : τ) (guess : Nat) : Loop τ :=
  if deadline - loop.nextTime ≤ TimeScale.ofNat 0 ∨ loop.clock.stepDuration ≤ TimeScale.ofNat 0 then
    loop
  else
    match loop.countBefore deadline (loop.tickBound deadline) guess with
    | 0 => loop
    | count + 1 => loop.skip (count + 1)

/-- Steps over the ticks before a deadline.  Their number is guessed by division, and the guess,
which rounding can put off by some ticks, is then set right. -/
def skipBefore (loop : Loop τ) (deadline : τ) : Loop τ :=
  loop.skipBeforeFrom deadline
    (TimeScale.ceilNat ((deadline - loop.nextTime) / loop.clock.stepDuration))

/-- Hands out the ticks before a horizon, at most a given number of them. -/
def takeBefore (loop : Loop τ) (horizon : τ) : Nat → List (Tick τ) × Loop τ
  | 0 => ([], loop)
  | fuel + 1 =>
    if horizon ≤ loop.nextTime then ([], loop)
    else
      let (ticks, rest) := loop.advance.takeBefore horizon fuel
      (loop.tick :: ticks, rest)

/-- Hands out all ticks before a horizon. -/
def ticksBefore (loop : Loop τ) (horizon : τ) : List (Tick τ) × Loop τ :=
  loop.takeBefore horizon (loop.tickBound horizon)

/-- Spaces the later ticks anew.  The last tick handed out stays where it is; if there is none,
the next one does. -/
def retempo (loop : Loop τ) (stepDuration : τ) : Loop τ :=
  { loop with clock := loop.clock.retempo (loop.lastTick.getD loop.nextTick) stepDuration }

end Loop

end Groovebox
