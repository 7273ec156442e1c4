import Groovebox.Sequencer.Loop

/-!
# What a loop hands out

A loop that hands out ticks advances tick by tick, and all that it hands out is known from where it
stood.  `advanceBy` is the loop some ticks later; `takeBefore_eq` says that the ticks handed out are
the next ones in a row, and which of them is the last.
-/

namespace Groovebox

namespace Loop

variable {τ : Type}

/-! ## A number of ticks on -/

/-- The loop after its next ticks, a number of them, are handed out. -/
def advanceBy (loop : Loop τ) : Nat → Loop τ
  | 0 => loop
  | n + 1 => (loop.advanceBy n).advance

@[simp] theorem advanceBy_zero (loop : Loop τ) : loop.advanceBy 0 = loop := rfl

/-- The first of the ticks may be taken apart. -/
theorem advanceBy_advance (loop : Loop τ) (n : Nat) :
    loop.advance.advanceBy n = loop.advanceBy (n + 1) := by
  induction n with
  | zero => rfl
  | succ n ih =>
    rw [advanceBy, ih]
    rfl

/-- Ticks may be handed out in two goes. -/
theorem advanceBy_add (loop : Loop τ) (m n : Nat) :
    loop.advanceBy (m + n) = (loop.advanceBy m).advanceBy n := by
  induction n with
  | zero => rfl
  | succ n ih => rw [← Nat.add_assoc, advanceBy, ih, advanceBy]

@[simp] theorem id_advanceBy (loop : Loop τ) (n : Nat) : (loop.advanceBy n).id = loop.id := by
  induction n with
  | zero => rfl
  | succ n ih => exact ih

@[simp] theorem clock_advanceBy (loop : Loop τ) (n : Nat) :
    (loop.advanceBy n).clock = loop.clock := by
  induction n with
  | zero => rfl
  | succ n ih => exact ih

@[simp] theorem patterns_advanceBy (loop : Loop τ) (n : Nat) :
    (loop.advanceBy n).patterns = loop.patterns := by
  induction n with
  | zero => rfl
  | succ n ih => exact ih

@[simp] theorem cycle_advanceBy (loop : Loop τ) (n : Nat) :
    (loop.advanceBy n).cycle = loop.cycle := by
  rw [cycle, patterns_advanceBy, cycle]

@[simp] theorem nextTick_advanceBy (loop : Loop τ) (n : Nat) :
    (loop.advanceBy n).nextTick = loop.nextTick + n := by
  induction n with
  | zero => rfl
  | succ n ih =>
    rw [advanceBy, advance]
    show (loop.advanceBy n).nextTick + 1 = loop.nextTick + (n + 1)
    rw [ih, Nat.add_assoc]

/-- The step goes round in the cycle. -/
theorem nextStep_advanceBy {loop : Loop τ} (h : loop.nextStep < loop.cycle) (n : Nat) :
    (loop.advanceBy n).nextStep = (loop.nextStep + n) % loop.cycle := by
  induction n with
  | zero => rw [Nat.add_zero, Nat.mod_eq_of_lt h, advanceBy_zero]
  | succ n ih =>
    rw [advanceBy, advance]
    show ((loop.advanceBy n).nextStep + 1) % (loop.advanceBy n).cycle = _
    rw [ih, cycle_advanceBy, Nat.mod_add_mod, Nat.add_assoc]

theorem nextStep_advanceBy_lt {loop : Loop τ} (h : loop.nextStep < loop.cycle) (n : Nat) :
    (loop.advanceBy n).nextStep < (loop.advanceBy n).cycle := by
  rw [nextStep_advanceBy h, cycle_advanceBy]
  exact Nat.mod_lt _ (Nat.zero_lt_of_lt h)

variable [TimeScale τ]

@[simp] theorem nextTime_advanceBy (loop : Loop τ) (n : Nat) :
    (loop.advanceBy n).nextTime = loop.clock.timeOf (loop.nextTick + n) := by
  rw [nextTime, clock_advanceBy, nextTick_advanceBy]

/-! ## The ticks before a horizon -/

/-- The next ticks in a row, a number of them. -/
def nextTicks (loop : Loop τ) (n : Nat) : List (Tick τ) :=
  (List.range n).map fun i => (loop.advanceBy i).tick

@[simp] theorem length_nextTicks (loop : Loop τ) (n : Nat) : (loop.nextTicks n).length = n := by
  rw [nextTicks, List.length_map, List.length_range]

theorem nextTicks_succ (loop : Loop τ) (n : Nat) :
    loop.nextTicks (n + 1) = loop.tick :: loop.advance.nextTicks n := by
  rw [nextTicks, nextTicks, List.range_succ_eq_map, List.map_cons, List.map_map]
  congr 1
  refine List.map_congr_left fun i _ => ?_
  rw [advanceBy_advance]
  rfl

theorem nextTicks_add (loop : Loop τ) (m n : Nat) :
    loop.nextTicks (m + n) = loop.nextTicks m ++ (loop.advanceBy m).nextTicks n := by
  simp only [nextTicks, List.range_add, List.map_append, List.map_map, advanceBy_add,
    Function.comp_def]

/-- The last of the ticks may be taken apart. -/
theorem nextTicks_concat (loop : Loop τ) (n : Nat) :
    loop.nextTicks (n + 1) = loop.nextTicks n ++ [(loop.advanceBy n).tick] :=
  loop.nextTicks_add n 1

theorem mem_nextTicks {loop : Loop τ} {n : Nat} {tick : Tick τ} :
    tick ∈ loop.nextTicks n ↔ ∃ i < n, (loop.advanceBy i).tick = tick := by
  simp [nextTicks]

/-- The ticks handed out are the next ones in a row, each before the horizon; the one after them is
not, unless the allowance is used up. -/
theorem takeBefore_eq (loop : Loop τ) (horizon : τ) (fuel : Nat) :
    ∃ n, loop.takeBefore horizon fuel = (loop.nextTicks n, loop.advanceBy n) ∧
      (∀ i < n, ¬ horizon ≤ (loop.advanceBy i).nextTime) ∧
      (n = fuel ∨ horizon ≤ (loop.advanceBy n).nextTime) := by
  induction fuel generalizing loop with
  | zero => exact ⟨0, rfl, fun i hi => absurd hi (Nat.not_lt_zero i), Or.inl rfl⟩
  | succ fuel ih =>
    rw [takeBefore]
    split
    · next h => exact ⟨0, rfl, fun i hi => absurd hi (Nat.not_lt_zero i), Or.inr h⟩
    · next h =>
      -- the ticks after the first are those of the loop one tick on
      obtain ⟨n, heq, hbefore, hlast⟩ := ih loop.advance
      refine ⟨n + 1, ?_, ?_, ?_⟩
      · rw [heq, nextTicks_succ, ← advanceBy_advance]
      · intro i hi
        cases i with
        | zero => exact h
        | succ i =>
          rw [← advanceBy_advance]
          exact hbefore i (Nat.lt_of_succ_lt_succ hi)
      · rw [← advanceBy_advance]
        exact hlast.imp (congrArg (· + 1)) (fun h => h)

theorem ticksBefore_eq (loop : Loop τ) (horizon : τ) :
    ∃ n, loop.ticksBefore horizon = (loop.nextTicks n, loop.advanceBy n) ∧
      (∀ i < n, ¬ horizon ≤ (loop.advanceBy i).nextTime) ∧
      (n = loop.tickBound horizon ∨ horizon ≤ (loop.advanceBy n).nextTime) :=
  loop.takeBefore_eq horizon _

/-! ## Stepping over ticks -/

/-- A loop steps over some ticks or stays as it is. -/
theorem skipBefore_eq (loop : Loop τ) (deadline : τ) :
    loop.skipBefore deadline = loop ∨ ∃ n, loop.skipBefore deadline = loop.skip (n + 1) := by
  rw [skipBefore, skipBeforeFrom]
  split
  · exact Or.inl rfl
  · split
    · exact Or.inl rfl
    · next n _ => exact Or.inr ⟨n, rfl⟩

/-- What stepping over ticks leaves alone, and that it stays in the cycle. -/
theorem skipBefore_frame {loop : Loop τ} (h : loop.nextStep < loop.cycle) (deadline : τ) :
    (loop.skipBefore deadline).id = loop.id ∧ (loop.skipBefore deadline).clock = loop.clock ∧
      (loop.skipBefore deadline).patterns = loop.patterns ∧
      (loop.skipBefore deadline).lastTick = loop.lastTick ∧
      (loop.skipBefore deadline).nextStep < loop.cycle := by
  rcases loop.skipBefore_eq deadline with heq | ⟨n, heq⟩
  · rw [heq]
    exact ⟨rfl, rfl, rfl, rfl, h⟩
  · rw [heq]
    exact ⟨rfl, rfl, rfl, rfl, Nat.mod_lt _ (Nat.zero_lt_of_lt h)⟩

/-- A loop that gets no further than its next tick is left as it is. -/
theorem skipBefore_eq_self {loop : Loop τ} {deadline : τ}
    (h : (loop.skipBefore deadline).nextTick ≤ loop.nextTick) :
    loop.skipBefore deadline = loop := by
  rcases loop.skipBefore_eq deadline with heq | ⟨n, heq⟩
  · exact heq
  · rw [heq, skip] at h
    have hle : loop.nextTick + (n + 1) ≤ loop.nextTick := h
    omega

end Loop

end Groovebox
