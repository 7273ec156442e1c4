import Groovebox.Proofs.Grid
import Mathlib.Data.Nat.Find
import Mathlib.Logic.Function.Iterate

/-!
# Missed ticks

A loop that is late steps over the ticks that it has missed.  How many they are is guessed by
division, and two searches set the guess right: one goes up while the tick that it has come to is
still missed, the other goes down while the tick before it is not.  `EndsAt` says where such a
search ends, if it ends at all; no allowance is made for it.  Both searches end from every guess,
however far off, and together they find the number of missed ticks, so that the loop is left as if
it had stepped over one missed tick after another (`skipBeforeFrom_sets_guess_right`).

Nothing is asked of the loop but that its steps have a length.  It may even stand before the anchor
of its clock, where many ticks are at one time.
-/

namespace Groovebox

/-! ## Searches without an allowance -/

/-- To go on from a value while a test holds ends at a value. -/
inductive EndsAt {α : Type} (test : α → Prop) (next : α → α) : α → α → Prop where
  | stop {a : α} (h : ¬ test a) : EndsAt test next a a
  | goOn {a last : α} (h : test a) (rest : EndsAt test next (next a) last) :
      EndsAt test next a last

namespace EndsAt

variable {α : Type} {test : α → Prop} {next : α → α}

/-- A search ends at one value only. -/
theorem unique {a b c : α} (hb : EndsAt test next a b) (hc : EndsAt test next a c) : b = c := by
  induction hb with
  | stop hstop =>
    cases hc with
    | stop => rfl
    | goOn hgoOn => exact absurd hgoOn hstop
  | goOn hgoOn _ ih =>
    cases hc with
    | stop hstop => exact absurd hgoOn hstop
    | goOn _ rest => exact ih rest

theorem iff_eq {a b : α} (h : EndsAt test next a b) (c : α) : EndsAt test next a c ↔ c = b := by
  constructor
  · intro hc
    exact hc.unique h
  · rintro rfl
    exact h

/-- A search ends where the test fails for the first time. -/
theorem iterate {a : α} {n : Nat} (htest : ∀ i < n, test (next^[i] a))
    (hlast : ¬ test (next^[n] a)) : EndsAt test next a (next^[n] a) := by
  induction n generalizing a with
  | zero => exact .stop hlast
  | succ n ih =>
    refine .goOn (htest 0 (Nat.succ_pos n)) (ih ?_ hlast)
    intro i hi
    exact htest (i + 1) (Nat.succ_lt_succ hi)

end EndsAt

theorem iterate_succ_eq_add (n start : Nat) : (· + 1)^[n] start = start + n := by
  induction n with
  | zero => rfl
  | succ n ih => rw [Function.iterate_succ_apply', ih, Nat.add_assoc]

theorem iterate_pred_eq_sub (n start : Nat) : (· - 1)^[n] start = start - n := by
  induction n with
  | zero => rfl
  | succ n ih => rw [Function.iterate_succ_apply', ih, Nat.sub_sub]

/-- To go up while below a number ends there, or where it begins. -/
theorem endsAt_max {test : Nat → Prop} {count : Nat} (h : ∀ n, test n ↔ n < count) (start : Nat) :
    EndsAt test (· + 1) start (max start count) := by
  have hend : (· + 1)^[count - start] start = max start count := by
    rw [iterate_succ_eq_add]
    omega
  rw [← hend]
  refine EndsAt.iterate ?_ ?_
  · intro i hi
    rw [iterate_succ_eq_add, h]
    omega
  · rw [hend, h]
    omega

/-- To go down while above a number ends there. -/
theorem endsAt_of_le {test : Nat → Prop} {count start : Nat}
    (h : ∀ n, test n ↔ count < n) (hstart : count ≤ start) : EndsAt test (· - 1) start count := by
  have hend : (· - 1)^[start - count] start = count := by
    rw [iterate_pred_eq_sub]
    omega
  rw [← hend]
  refine EndsAt.iterate ?_ ?_
  · intro i hi
    rw [iterate_pred_eq_sub, h]
    omega
  · rw [hend, h]
    omega

namespace Loop

/-! ## One tick at a time -/

/-- Steps over the next tick, without handing it out. -/
def passOver {τ : Type} (loop : Loop τ) : Loop τ :=
  { loop.advance with lastTick := loop.lastTick }

/-- To step over ticks one at a time is to step over them all at once. -/
theorem iterate_passOver_succ {τ : Type} (loop : Loop τ) (n : Nat) :
    passOver^[n + 1] loop = loop.skip (n + 1) := by
  induction n with
  | zero =>
    show loop.passOver = loop.skip 1
    simp only [passOver, advance, skip, Nat.add_mod_mod]
  | succ n ih =>
    rw [Function.iterate_succ_apply', ih]
    simp only [passOver, advance, skip, cycle, Nat.add_mod_mod, Nat.mod_add_mod, Nat.add_assoc]

theorem nextTick_iterate_passOver {τ : Type} (loop : Loop τ) (n : Nat) :
    (passOver^[n] loop).nextTick = loop.nextTick + n := by
  cases n with
  | zero => rfl
  | succ n =>
    rw [iterate_passOver_succ]
    rfl

theorem clock_iterate_passOver {τ : Type} (loop : Loop τ) (n : Nat) :
    (passOver^[n] loop).clock = loop.clock := by
  cases n with
  | zero => rfl
  | succ n =>
    rw [iterate_passOver_succ]
    rfl

theorem nextTime_iterate_passOver (loop : Loop Rat) (n : Nat) :
    (passOver^[n] loop).nextTime = loop.clock.timeOf (loop.nextTick + n) := by
  rw [nextTime, nextTick_iterate_passOver, clock_iterate_passOver]

/-- To step over ticks changes nothing but which tick comes next and which step it plays. -/
theorem iterate_passOver_eq {τ : Type} (loop : Loop τ) (n : Nat) :
    passOver^[n] loop =
      { loop with
        nextTick := (passOver^[n] loop).nextTick
        nextStep := (passOver^[n] loop).nextStep } := by
  cases n with
  | zero => rfl
  | succ n =>
    rw [iterate_passOver_succ]
    rfl

theorem nextStep_iterate_passOver {τ : Type} (loop : Loop τ) {n : Nat} (hpos : 0 < n) :
    (passOver^[n] loop).nextStep = (loop.nextStep + n) % loop.cycle := by
  obtain ⟨n, rfl⟩ := Nat.exists_eq_add_one_of_ne_zero hpos.ne'
  rw [iterate_passOver_succ]
  exact Nat.add_mod_mod _ _ _

/-! ## As many ticks as are missed -/

section

variable {loop : Loop Rat} {deadline : Rat} {count : Nat}
  (h : ∀ n, loop.clock.timeOf (loop.nextTick + n) < deadline ↔ n < count)

include h

/-- Ticks are stepped over one at a time until the next one is not missed. -/
theorem endsAt_iterate_passOver :
    EndsAt (fun loop => loop.nextTime < deadline) passOver loop (passOver^[count] loop) := by
  refine EndsAt.iterate ?_ ?_
  · intro i hi
    rw [nextTime_iterate_passOver, h]
    exact hi
  · rw [nextTime_iterate_passOver, h]
    exact lt_irrefl count

/-- The first tick that is not missed. -/
theorem isLeast_nextTick_add :
    IsLeast {tick | loop.nextTick ≤ tick ∧ deadline ≤ loop.clock.timeOf tick}
      (loop.nextTick + count) := by
  refine ⟨⟨Nat.le_add_right _ _, ?_⟩, ?_⟩
  · rw [← not_lt, h]
    exact lt_irrefl count
  · rintro tick ⟨htick, hlate⟩
    obtain ⟨n, rfl⟩ := Nat.exists_eq_add_of_le htick
    rw [← not_lt, h, not_lt] at hlate
    exact Nat.add_le_add_left hlate _

/-- The search that goes down from a guess, or from where the other one has ended. -/
theorem endsAt_missed (guess : Nat) :
    EndsAt (fun n => 0 < n ∧ deadline ≤ loop.clock.timeOf (loop.nextTick + (n - 1))) (· - 1)
      (max guess count) count := by
  refine endsAt_of_le (fun n => ?_) (le_max_right guess count)
  rw [← not_lt, h]
  omega

/-- A loop that is not late has missed nothing. -/
theorem missed_eq_zero (hearly : deadline ≤ loop.nextTime) : count = 0 :=
  Nat.eq_zero_of_not_pos fun hpos => not_lt.mpr hearly ((h 0).mpr hpos)

end

/-! ## How many ticks are missed -/

section

variable {loop : Loop Rat} (hduration : 0 < loop.clock.stepDuration) (deadline : Rat)

include hduration

/-- Some tick within the allowance is not before the deadline. -/
theorem le_timeOf_tickBound :
    deadline ≤ loop.clock.timeOf (loop.nextTick + loop.tickBound deadline) := by
  -- the first of the ticks that are a step apart is the anchor, if that is still to come
  have hanchor : loop.clock.anchorTick ≤
      loop.nextTick + (loop.clock.anchorTick - loop.nextTick) := by omega
  have hmono := StepClock.timeOf_mono hduration.le
  have hsteps : deadline - loop.nextTime ≤ loop.countUntil deadline * loop.clock.stepDuration :=
    (TimeScale.ceilNat_div_le_iff hduration).mp le_rfl
  have hnext : loop.nextTime ≤
      loop.clock.timeOf (loop.nextTick + (loop.clock.anchorTick - loop.nextTick)) :=
    hmono (Nat.le_add_right _ _)
  calc deadline
      ≤ loop.nextTime + loop.countUntil deadline * loop.clock.stepDuration := by linarith
    _ ≤ loop.clock.timeOf (loop.nextTick + (loop.clock.anchorTick - loop.nextTick)) +
          loop.countUntil deadline * loop.clock.stepDuration := by linarith
    _ = loop.clock.timeOf (loop.nextTick + (loop.clock.anchorTick - loop.nextTick) +
          loop.countUntil deadline) := (StepClock.timeOf_add hanchor _).symm
    _ ≤ loop.clock.timeOf (loop.nextTick + loop.tickBound deadline) := hmono (by
        have hless : loop.countUntil deadline <
            TimeScale.stepBound (deadline - loop.nextTime) loop.clock.stepDuration :=
          TimeScale.ceilNat_div_lt_stepBound _ _
        rw [tickBound]
        omega)

/-- The missed ticks are the first ones, and they are allowed for. -/
theorem exists_missed :
    ∃ count ≤ loop.tickBound deadline,
      ∀ n, loop.clock.timeOf (loop.nextTick + n) < deadline ↔ n < count := by
  have hbound := le_timeOf_tickBound hduration deadline
  have hsome : ∃ n, deadline ≤ loop.clock.timeOf (loop.nextTick + n) := ⟨_, hbound⟩
  refine ⟨Nat.find hsome, Nat.find_min' hsome hbound, fun n => ?_⟩
  rw [Nat.lt_find_iff]
  constructor
  · intro hlt m hm hle
    have hearlier : loop.clock.timeOf (loop.nextTick + m) ≤ loop.clock.timeOf (loop.nextTick + n) :=
      StepClock.timeOf_mono hduration.le (Nat.add_le_add_left hm _)
    linarith
  · intro hnone
    exact not_le.mp (hnone n le_rfl)

variable {deadline}

/-- From every guess a loop steps over as many ticks as it has missed, as if one at a time. -/
theorem skipBeforeFrom_eq_iterate {count : Nat} (hbound : count ≤ loop.tickBound deadline)
    (h : ∀ n, loop.clock.timeOf (loop.nextTick + n) < deadline ↔ n < count) (guess : Nat) :
    loop.skipBeforeFrom deadline guess = passOver^[count] loop := by
  rw [skipBeforeFrom]
  split
  · next hlate =>
    have hearly : deadline ≤ loop.nextTime := by
      rcases hlate with hlate | hlate
      · exact sub_nonpos.mp hlate
      · exact absurd hduration (not_lt.mpr hlate)
    rw [missed_eq_zero h hearly]
    rfl
  · rw [countBefore_eq h hbound]
    cases count with
    | zero => rfl
    | succ n => exact (loop.iterate_passOver_succ n).symm

end

/-- A loop goes on at the first tick that is not before the deadline and as many steps further on in
its cycle, as if it had stepped over the missed ticks one at a time, and nothing else of it changes.
So it does from every guess of their number: the two searches end, the first one at the guess or
where the missed ticks end, and the second one where they end.  A loop that is not late is left
alone. -/
theorem skipBeforeFrom_sets_guess_right (loop : Loop Rat) (hduration : 0 < loop.clock.stepDuration)
    (deadline : Rat) (guess : Nat) :
    let time (n : Nat) : Rat := loop.clock.timeOf (loop.nextTick + n)
    let after := loop.skipBeforeFrom deadline guess
    let missed := after.nextTick - loop.nextTick
    (∀ top, EndsAt (fun n => time n < deadline) (· + 1) guess top ↔ top = max guess missed) ∧
      (∀ last, EndsAt (fun n => 0 < n ∧ deadline ≤ time (n - 1)) (· - 1) (max guess missed) last ↔
        last = missed) ∧
      loop.countBefore deadline (loop.tickBound deadline) guess = missed ∧
      loop.skipBefore deadline = after ∧
      (∀ other, EndsAt (fun loop => loop.nextTime < deadline) passOver loop other ↔
        other = after) ∧
      IsLeast {tick | loop.nextTick ≤ tick ∧ deadline ≤ loop.clock.timeOf tick} after.nextTick ∧
      (loop.nextTime < deadline → after.nextStep = (loop.nextStep + missed) % loop.cycle) ∧
      after = { loop with nextTick := after.nextTick, nextStep := after.nextStep } ∧
      (deadline ≤ loop.nextTime → after = loop) := by
  intro time after missed
  obtain ⟨count, hbound, hcount⟩ := exists_missed hduration deadline
  have hafter : after = passOver^[count] loop :=
    skipBeforeFrom_eq_iterate hduration hbound hcount guess
  have htick : after.nextTick = loop.nextTick + count := by
    rw [hafter, nextTick_iterate_passOver]
  have hmissed : missed = count := by
    show after.nextTick - loop.nextTick = count
    rw [htick, Nat.add_sub_cancel_left]
  rw [hmissed, htick]
  refine ⟨(endsAt_max hcount guess).iff_eq, (endsAt_missed hcount guess).iff_eq,
    countBefore_eq hcount hbound guess, ?_, ?_, isLeast_nextTick_add hcount, ?_, ?_, ?_⟩
  · rw [hafter, skipBefore, skipBeforeFrom_eq_iterate hduration hbound hcount]
  · rw [hafter]
    exact (endsAt_iterate_passOver hcount).iff_eq
  · intro hlate
    rw [hafter]
    exact loop.nextStep_iterate_passOver ((hcount 0).mp hlate)
  · rw [← htick, hafter]
    exact loop.iterate_passOver_eq count
  · intro hearly
    rw [hafter, missed_eq_zero hcount hearly]
    rfl

/-- A loop of three hits, two ticks before the anchor of its clock. -/
def beforeAnchor : Loop Rat where
  id := 0
  clock := ⟨2, 1 / 2, 1 / 4⟩
  nextTick := 0
  nextStep := 2
  patterns := ⟨some (.ofWords ["kick", "snare", "clap"]), none, none⟩
  lastTick := none

/-- The first three ticks are at half a second.  A guess that none of the ticks before one second is
missed and a guess that nine are both lead to the fifth tick, which is at one second. -/
theorem skipBeforeFrom_sets_guess_right_beforeAnchor :
    0 < beforeAnchor.clock.stepDuration ∧
      (beforeAnchor.skipBeforeFrom 1 0).nextTick = 4 ∧
      (beforeAnchor.skipBeforeFrom 1 9).nextTick = 4 ∧
      EndsAt (fun n => beforeAnchor.clock.timeOf (0 + n) < 1) (· + 1) 0 4 ∧
      (beforeAnchor.skipBeforeFrom 1 0).nextStep = (2 + 4) % 3 := by
  have hduration : 0 < beforeAnchor.clock.stepDuration := by decide +kernel
  have hlate : beforeAnchor.nextTime < 1 := by decide +kernel
  have hnone : (beforeAnchor.skipBeforeFrom 1 0).nextTick = 4 := by decide +kernel
  have hnine : (beforeAnchor.skipBeforeFrom 1 9).nextTick = 4 := by decide +kernel
  obtain ⟨hup, _, _, _, _, _, hstep, _, _⟩ :=
    beforeAnchor.skipBeforeFrom_sets_guess_right hduration 1 0
  have hstep := hstep hlate
  rw [hnone] at hup hstep
  exact ⟨hduration, hnone, hnine, (hup 4).mpr rfl, hstep⟩

end Loop

end Groovebox
