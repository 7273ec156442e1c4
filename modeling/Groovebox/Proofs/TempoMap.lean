import Groovebox.Proofs.Grid
import Mathlib.Algebra.BigOperators.Intervals
import Mathlib.Algebra.BigOperators.Ring.Finset

/-!
# Tempo maps

A step clock keeps no record of its tempos.  Each change of tempo leaves a new anchor and a new
step, and what the steps were before is forgotten.  Nevertheless the time of a tick is what the
whole record makes it: it is the time of the first anchor and all the steps from there on, each as
long as the last change at or before it says (`retempos_sums_steps`).  Changes may follow one
another at one tick, and then only the last of them counts.
-/

namespace Groovebox

/-- A change of tempo: the tick that keeps its time, and the step from there on. -/
structure TempoMark where
  tick : Nat
  stepDuration : Rat
deriving DecidableEq, Repr

namespace StepClock

/-- The clock after some changes of tempo. -/
def retempos (clock : StepClock Rat) (marks : List TempoMark) : StepClock Rat :=
  marks.foldl (fun clock mark => clock.retempo mark.tick mark.stepDuration) clock

/-- The time from a tick to the next, as the last change at or before the tick sets it, or else the
clock. -/
def stepAt (clock : StepClock Rat) (marks : List TempoMark) (tick : Nat) : Rat :=
  ((marks.filter (·.tick ≤ tick)).getLast?.map (·.stepDuration)).getD clock.stepDuration

/-- The ticks from which on no tempo is changed. -/
def settled (clock : StepClock Rat) (marks : List TempoMark) : Set Nat :=
  {tick | clock.anchorTick ≤ tick ∧ ∀ mark ∈ marks, mark.tick ≤ tick}

/-- The changes come after the anchor of the clock, and none at a tick before that of another. -/
def InOrder (clock : StepClock Rat) (marks : List TempoMark) : Prop :=
  (clock.anchorTick :: marks.map (·.tick)).Pairwise (· ≤ ·)

variable {clock : StepClock Rat} {mark : TempoMark} {marks : List TempoMark}

/-! ## The first change and the others -/

theorem retempos_append (clock : StepClock Rat) (marks later : List TempoMark) :
    clock.retempos (marks ++ later) = (clock.retempos marks).retempos later :=
  List.foldl_append ..

/-- Before all changes the step is that of the clock. -/
theorem stepAt_of_forall_lt {tick : Nat} (h : ∀ mark ∈ marks, tick < mark.tick) :
    clock.stepAt marks tick = clock.stepDuration := by
  have hnone : marks.filter (·.tick ≤ tick) = [] := by
    simpa [List.filter_eq_nil_iff] using h
  rw [stepAt, hnone]
  rfl

/-- From the first change on, the step is that of the clock after it. -/
theorem stepAt_cons_of_le {tick : Nat} (h : mark.tick ≤ tick) :
    clock.stepAt (mark :: marks) tick =
      (clock.retempo mark.tick mark.stepDuration).stepAt marks tick := by
  rw [stepAt, stepAt, List.filter_cons_of_pos (by simpa using h), List.getLast?_cons]
  cases (marks.filter (·.tick ≤ tick)).getLast? <;> rfl

theorem InOrder.of_cons (h : clock.InOrder (mark :: marks)) :
    (clock.retempo mark.tick mark.stepDuration).InOrder marks :=
  List.Pairwise.of_cons h

theorem InOrder.anchorTick_le (h : clock.InOrder (mark :: marks)) :
    clock.anchorTick ≤ mark.tick :=
  List.rel_of_pairwise_cons h (List.mem_cons_self ..)

/-- No change comes at a tick before that of the first. -/
theorem InOrder.tick_le (h : clock.InOrder (mark :: marks)) {later : TempoMark}
    (hlater : later ∈ mark :: marks) : mark.tick ≤ later.tick := by
  rcases List.mem_cons.mp hlater with rfl | hmem
  · exact le_rfl
  · exact List.rel_of_pairwise_cons (List.Pairwise.of_cons h) (List.mem_map_of_mem hmem)

theorem settled_cons_subset :
    clock.settled (mark :: marks) ⊆
      (clock.retempo mark.tick mark.stepDuration).settled marks := by
  rintro tick ⟨_, hmarks⟩
  exact List.forall_mem_cons.mp hmarks

/-! ## Sums of steps -/

/-- On a grid of one step, a tick is as many steps after the anchor as it has ticks before it. -/
theorem timeOf_eq_add_sum (clock : StepClock Rat) (tick : Nat) :
    clock.timeOf tick =
      clock.anchorTime + ∑ _j ∈ Finset.Ico clock.anchorTick tick, clock.stepDuration := by
  rw [timeOf_def, Finset.sum_const, Nat.card_Ico, nsmul_eq_mul]

/-- The time of a tick is that of the anchor and all the steps from there on. -/
theorem timeOf_retempos (h : clock.InOrder marks) {tick : Nat} (htick : tick ∈ clock.settled marks) :
    (clock.retempos marks).timeOf tick =
      clock.anchorTime + ∑ j ∈ Finset.Ico clock.anchorTick tick, clock.stepAt marks j := by
  induction marks generalizing clock with
  | nil => exact clock.timeOf_eq_add_sum tick
  | cons mark marks ih =>
    -- the first change cuts the sum in two: before it the clock's own step counts
    have hle : mark.tick ≤ tick := htick.2 mark List.mem_cons_self
    have hbefore : ∑ j ∈ Finset.Ico clock.anchorTick mark.tick, clock.stepAt (mark :: marks) j =
        ∑ _j ∈ Finset.Ico clock.anchorTick mark.tick, clock.stepDuration := by
      refine Finset.sum_congr rfl fun j hj => stepAt_of_forall_lt fun later hlater => ?_
      exact lt_of_lt_of_le (Finset.mem_Ico.mp hj).2 (h.tick_le hlater)
    have hafter : ∑ j ∈ Finset.Ico mark.tick tick, clock.stepAt (mark :: marks) j =
        ∑ j ∈ Finset.Ico mark.tick tick,
          (clock.retempo mark.tick mark.stepDuration).stepAt marks j :=
      Finset.sum_congr rfl fun j hj => stepAt_cons_of_le (Finset.mem_Ico.mp hj).1
    calc (clock.retempos (mark :: marks)).timeOf tick
        = clock.timeOf mark.tick + ∑ j ∈ Finset.Ico mark.tick tick,
            (clock.retempo mark.tick mark.stepDuration).stepAt marks j :=
          ih h.of_cons (settled_cons_subset htick)
      _ = clock.anchorTime +
            (∑ j ∈ Finset.Ico clock.anchorTick mark.tick, clock.stepAt (mark :: marks) j +
              ∑ j ∈ Finset.Ico mark.tick tick, clock.stepAt (mark :: marks) j) := by
          rw [hbefore, hafter, timeOf_eq_add_sum, add_assoc]
      _ = clock.anchorTime +
            ∑ j ∈ Finset.Ico clock.anchorTick tick, clock.stepAt (mark :: marks) j := by
          rw [Finset.sum_Ico_consecutive _ h.anchorTick_le hle]

/-! ## The grid after the last change -/

/-- From the anchor on, every tick comes after the one before it. -/
theorem timeOf_strictMonoOn (h : 0 < clock.stepDuration) :
    StrictMonoOn clock.timeOf (Set.Ici clock.anchorTick) := by
  intro a ha b _ hab
  have hsteps : ((a - clock.anchorTick : Nat) : Rat) < (b - clock.anchorTick : Nat) :=
    Nat.cast_lt.mpr (Nat.sub_lt_sub_right ha hab)
  rw [timeOf_def, timeOf_def]
  exact add_lt_add_right (mul_lt_mul_of_pos_right hsteps h) _

theorem settled_subset_Ici :
    clock.settled marks ⊆ Set.Ici (clock.retempos marks).anchorTick := by
  induction marks generalizing clock with
  | nil => exact fun _ htick => htick.1
  | cons mark marks ih => exact settled_cons_subset.trans ih

theorem stepDuration_retempos_pos (h : 0 < clock.stepDuration)
    (hmarks : ∀ mark ∈ marks, 0 < mark.stepDuration) :
    0 < (clock.retempos marks).stepDuration := by
  induction marks generalizing clock with
  | nil => exact h
  | cons mark marks ih =>
    obtain ⟨hmark, hmarks⟩ := List.forall_mem_cons.mp hmarks
    exact ih hmark hmarks

/-- Whatever changes of tempo a clock goes through, each at the tick of the one before or later, a
tick after them all is as far from the clock's anchor as the steps up to it are long together, each
as the last change at or before it sets it.  No change moves its own tick, and from the last one on
every tick comes after the one before it. -/
theorem retempos_sums_steps (clock : StepClock Rat) (hclock : 0 < clock.stepDuration)
    (marks : List TempoMark) (hmarks : ∀ mark ∈ marks, 0 < mark.stepDuration)
    (horder : (clock.anchorTick :: marks.map (·.tick)).Pairwise (· ≤ ·)) :
    (∀ k, clock.anchorTick ≤ k → (∀ mark ∈ marks, mark.tick ≤ k) →
        (clock.retempos marks).timeOf k =
          clock.anchorTime + ∑ j ∈ Finset.Ico clock.anchorTick k, clock.stepAt marks j) ∧
      (∀ before mark later, marks = before ++ mark :: later →
        (clock.retempos (before ++ [mark])).timeOf mark.tick =
          (clock.retempos before).timeOf mark.tick) ∧
      StrictMonoOn (clock.retempos marks).timeOf
        {k | clock.anchorTick ≤ k ∧ ∀ mark ∈ marks, mark.tick ≤ k} := by
  refine ⟨fun k hanchor hpast => timeOf_retempos horder ⟨hanchor, hpast⟩, ?_, ?_⟩
  · intro before mark _ _
    rw [retempos_append]
    exact timeOf_retempo_self _ mark.tick mark.stepDuration
  · exact (timeOf_strictMonoOn (stepDuration_retempos_pos hclock hmarks)).mono settled_subset_Ici

/-- Three steps of a quarter, two of an eighth and two of a whole second; the half is never used, as
the next change comes at the same tick. -/
theorem retempos_sums_steps_repeated :
    let clock : StepClock Rat := ⟨0, 1, 1 / 4⟩
    let marks : List TempoMark := [⟨3, 1 / 2⟩, ⟨3, 1 / 8⟩, ⟨5, 1⟩]
    0 < clock.stepDuration ∧ (∀ mark ∈ marks, 0 < mark.stepDuration) ∧
      (clock.anchorTick :: marks.map (·.tick)).Pairwise (· ≤ ·) ∧
      (clock.retempos marks).timeOf 7 = 4 ∧
      clock.anchorTime + ∑ j ∈ Finset.Ico 0 7, clock.stepAt marks j = 4 := by
  intro clock marks
  have hclock : 0 < clock.stepDuration := by decide +kernel
  have hmarks : ∀ mark ∈ marks, 0 < mark.stepDuration := by decide +kernel
  have horder : (clock.anchorTick :: marks.map (·.tick)).Pairwise (· ≤ ·) := by decide
  have htime : (clock.retempos marks).timeOf 7 = 4 := by decide +kernel
  have hsum := (clock.retempos_sums_steps hclock marks hmarks horder).1 7 (by decide) (by decide)
  exact ⟨hclock, hmarks, horder, htime, hsum.symm.trans htime⟩

end StepClock

end Groovebox
