import Groovebox.Proofs.LiveSwap
import Groovebox.Proofs.Performance

/-!
# Polling more often

A host may poll as often as it likes.  As long as no tick of the running loop becomes overdue, a
poll and another one before it do what the later one would have done alone: the earlier poll
dispatches the first of its ticks and announces the first of those that are due, and leaves the
later one the others.

* `OnTime.polls_eq`: the two polls dispatch the same ticks and end in the same sequencer;
* `announcedBy_polls`: they announce the same ticks, in whatever order of times the ticks wait;
* `OnTime.poll_again`: a second poll at the same time finds nothing to do, be ticks overdue or not.
-/

namespace Groovebox

namespace Sequencer

/-! ## Deliveries in two goes -/

/-- What is due at a time is due at a later one, be more appended in between or not. -/
theorem cut_at_times {a b : Rat} (hab : a ≤ b) (ticks more : List (Tick Rat)) :
    ticks.takeWhile (·.time ≤ a) ++ (ticks.dropWhile (·.time ≤ a) ++ more).takeWhile (·.time ≤ b) =
        (ticks ++ more).takeWhile (·.time ≤ b) ∧
      (ticks.dropWhile (·.time ≤ a) ++ more).dropWhile (·.time ≤ b) =
        (ticks ++ more).dropWhile (·.time ≤ b) := by
  have hdue : ∀ tick ∈ ticks.takeWhile (·.time ≤ a), decide (tick.time ≤ b) = true := by
    intro tick htick
    have hle := List.all_eq_true.mp (List.all_takeWhile (l := ticks)) tick htick
    exact decide_eq_true ((of_decide_eq_true hle).trans hab)
  have hsplit : ticks ++ more =
      ticks.takeWhile (·.time ≤ a) ++ (ticks.dropWhile (·.time ≤ a) ++ more) := by
    rw [← List.append_assoc, List.takeWhile_append_dropWhile]
  rw [hsplit, List.takeWhile_append_of_pos hdue, List.dropWhile_append_of_pos hdue]
  exact ⟨rfl, rfl⟩

theorem delivered_delivered {a b : Rat} (hab : a ≤ b) (seq : Sequencer Rat) :
    (seq.delivered a).delivered b = seq.delivered b := by
  have hqueue := (cut_at_times hab seq.pending []).2
  rw [List.append_nil, List.append_nil] at hqueue
  unfold delivered undue
  rw [hqueue]

/-- A delivery before ticks are appended changes nothing of what a later one leaves. -/
theorem delivered_handedOut_delivered {a b : Rat} (hab : a ≤ b) (seq : Sequencer Rat)
    (ticks : List (Tick Rat)) (rest : Loop Rat) :
    ((seq.delivered a).handedOut ticks rest).delivered b =
      (seq.handedOut ticks rest).delivered b := by
  have hqueue := (cut_at_times hab seq.pending ticks).2
  unfold delivered handedOut undue
  dsimp only
  rw [hqueue]

/-- A loop hands out ticks in two goes. -/
theorem handedOut_handedOut (seq : Sequencer Rat) (loop : Loop Rat) (m n : Nat) :
    (seq.handedOut (loop.nextTicks m) (loop.advanceBy m)).handedOut
        ((loop.advanceBy m).nextTicks n) ((loop.advanceBy m).advanceBy n) =
      seq.handedOut (loop.nextTicks (m + n)) (loop.advanceBy (m + n)) := by
  have hempty : ∀ (loop : Loop Rat) k, (loop.nextTicks k).isEmpty = decide (k = 0) := by
    intro loop k
    rw [Bool.eq_iff_iff, List.isEmpty_iff_length_eq_zero, Loop.length_nextTicks, decide_eq_true_iff]
  have hpending : seq.pending ++ loop.nextTicks m ++ (loop.advanceBy m).nextTicks n =
      seq.pending ++ loop.nextTicks (m + n) := by
    rw [Loop.nextTicks_add, List.append_assoc]
  simp only [handedOut, hempty, hpending, decide_eq_true_eq, ← Loop.advanceBy_add]
  -- the step is that of the last tick of either go
  cases n with
  | zero => simp
  | succ n => simp

/-! ## Polls in two goes -/

/-- The earlier poll leaves a playing loop its later ticks. -/
theorem Playing.polls_eq {seq : Sequencer Rat} {loop : Loop Rat} (h : seq.Playing loop) {a b : Rat}
    (hab : a ≤ b) (hearly : b - seq.config.lookahead ≤ loop.nextTime) :
    ((seq.apply (.poll a)).sequencer.apply (.poll b)).sequencer = (seq.apply (.poll b)).sequencer ∧
      seq.dispatchedBy (.poll a) ++ (seq.apply (.poll a)).sequencer.dispatchedBy (.poll b) =
        seq.dispatchedBy (.poll b) := by
  have hfirst : a - seq.config.lookahead ≤ loop.nextTime := by linarith
  obtain ⟨m, hm⟩ : ∃ m, loop.countUntil (a + seq.config.lookahead) = m := ⟨_, rfl⟩
  obtain ⟨n, hn⟩ : ∃ n, loop.countUntil (b + seq.config.lookahead) = m + n := by
    refine Nat.exists_eq_add_of_le ?_
    rw [← hm]
    exact h.onGrid.countUntil_mono (by linarith)
  obtain ⟨hticks, hafter, hplaying⟩ := h.apply_poll hfirst hm
  obtain ⟨hall, hwhole, _⟩ := h.apply_poll hearly hn
  -- the loop that the earlier poll leaves has no tick overdue either
  have hearly' : b - (seq.apply (.poll a)).sequencer.config.lookahead ≤
      (loop.advanceBy m).nextTime := by
    have hzero : loop.countUntil (b - seq.config.lookahead) ≤ 0 :=
      h.onGrid.countUntil_le_iff.mpr hearly
    rw [config_apply, Loop.nextTime_advanceBy, ← h.onGrid.countUntil_le_iff]
    exact hzero.trans (Nat.zero_le m)
  have hrest : (loop.advanceBy m).countUntil
      (b + (seq.apply (.poll a)).sequencer.config.lookahead) = n := by
    rw [config_apply, h.onGrid.countUntil_advanceBy, hn, Nat.add_sub_cancel_left]
  obtain ⟨hlater, hboth, _⟩ := hplaying.apply_poll hearly' hrest
  constructor
  · rw [hboth, hafter, hwhole, delivered_handedOut_delivered hab, handedOut_handedOut]
  · rw [hticks, hlater, hall, Loop.nextTicks_add]

/-- An earlier poll takes a part of a poll's ticks away, and changes nothing else. -/
theorem OnTime.polls_eq {seq : Sequencer Rat} (h : seq.OnTime) {a b : Rat} (hab : a ≤ b)
    (hearly : ∀ loop, seq.loop = some loop → b - seq.config.lookahead ≤ loop.nextTime) :
    ((seq.apply (.poll a)).sequencer.apply (.poll b)).sequencer = (seq.apply (.poll b)).sequencer ∧
      seq.dispatchedBy (.poll a) ++ (seq.apply (.poll a)).sequencer.dispatchedBy (.poll b) =
        seq.dispatchedBy (.poll b) := by
  cases hloop : seq.loop with
  | some loop => exact (h.playing hloop).polls_eq hab (hearly loop hloop)
  | none =>
    have hidle : seq.state = .running → seq.loop = none := fun _ => hloop
    have hidle' : (seq.delivered a).state = .running → (seq.delivered a).loop = none :=
      fun _ => hloop
    rw [apply_poll_of_idle hidle, apply_poll_of_idle hidle, apply_poll_of_idle hidle',
      delivered_delivered hab, dispatchedBy_poll_of_idle hidle, dispatchedBy_poll_of_idle hidle,
      dispatchedBy_poll_of_idle hidle']
    exact ⟨rfl, rfl⟩

/-- If the two polls dispatch the same ticks as the later one, they announce the same ticks too. -/
theorem announcedBy_polls {seq : Sequencer Rat} {a b : Rat} (hab : a ≤ b)
    (hticks : seq.dispatchedBy (.poll a) ++
      (seq.apply (.poll a)).sequencer.dispatchedBy (.poll b) = seq.dispatchedBy (.poll b)) :
    seq.announcedBy (.poll a) ++ (seq.apply (.poll a)).sequencer.announcedBy (.poll b) =
      seq.announcedBy (.poll b) := by
  rw [announcedBy_poll, announcedBy_poll, announcedBy_poll, pending_poll, (cut_at_times hab _ _).1,
    List.append_assoc, hticks]

/-! ## A poll twice -/

/-- After a poll the next tick is neither overdue for that poll nor inside its window. -/
theorem Playing.le_nextTime_poll {seq : Sequencer Rat} {loop : Loop Rat} (h : seq.Playing loop)
    (now : Rat) :
    ∃ rest, (seq.apply (.poll now)).sequencer.Playing rest ∧
      now - seq.config.lookahead ≤ rest.nextTime ∧ now + seq.config.lookahead ≤ rest.nextTime := by
  obtain ⟨missed, count, rest, hmissed, hcount, _, hrun, hloop, hgrid, hstep, hnth⟩ :=
    apply_poll_of_onGrid h.running h.loop_eq h.onGrid h.nextStep_lt now
  have hnext : rest.nextTime = (loop.nthTick (missed + count)).time := by
    rw [← Nat.add_zero (missed + count), ← hnth]
    rfl
  refine ⟨rest, ⟨hrun, hloop, hgrid, hstep⟩, ?_, ?_⟩
  · rw [hnext, ← hmissed]
    exact Nat.le_add_right missed count
  · rw [hnext, ← not_lt, ← hcount]
    exact lt_irrefl count

theorem handedOut_nil {seq : Sequencer Rat} {loop : Loop Rat} (h : seq.loop = some loop) :
    seq.handedOut [] loop = seq := by
  simp [handedOut, ← h]

/-- A poll ends with a delivery. -/
theorem delivered_apply_poll (seq : Sequencer Rat) (now : Rat) :
    (seq.apply (.poll now)).sequencer.delivered now = (seq.apply (.poll now)).sequencer := by
  by_cases hidle : seq.state = .running → seq.loop = none
  · rw [apply_poll_of_idle hidle, delivered_delivered le_rfl]
  · obtain ⟨hrun, hne⟩ := Classical.not_imp.mp hidle
    obtain ⟨loop, hloop⟩ := Option.ne_none_iff_exists'.mp hne
    rw [apply_poll_of_loop hrun hloop, delivered_delivered le_rfl]

/-- The effects of a poll are those of the ticks that it dispatches and announces. -/
theorem effects_poll (seq : Sequencer Rat) (now : Rat) :
    (seq.apply (.poll now)).effects =
      (seq.dispatchedBy (.poll now)).flatMap (soundTick seq.config.wrapPolicy) ++
        (seq.announcedBy (.poll now)).map Tick.announcement := rfl

/-- A second poll at the same time dispatches nothing and leaves the sequencer as it is. -/
theorem OnTime.poll_again {seq : Sequencer Rat} (h : seq.OnTime) (now : Rat) :
    (seq.apply (.poll now)).sequencer.dispatchedBy (.poll now) = [] ∧
      ((seq.apply (.poll now)).sequencer.apply (.poll now)).sequencer =
        (seq.apply (.poll now)).sequencer := by
  by_cases hidle : seq.state = .running → seq.loop = none
  · have hidle' : (seq.delivered now).state = .running → (seq.delivered now).loop = none := hidle
    rw [apply_poll_of_idle hidle]
    exact ⟨dispatchedBy_poll_of_idle hidle' now,
      (apply_poll_of_idle hidle' now).trans (delivered_delivered le_rfl seq)⟩
  · obtain ⟨hrun, hne⟩ := Classical.not_imp.mp hidle
    obtain ⟨loop, hloop⟩ := Option.ne_none_iff_exists'.mp hne
    obtain ⟨rest, hplaying, hearly, hlate⟩ := (h.playing hloop).le_nextTime_poll now
    rw [← config_apply seq (.poll now)] at hearly hlate
    have hnone := Nat.le_zero.mp (hplaying.onGrid.countUntil_le_iff.mpr hlate)
    obtain ⟨hticks, hafter, _⟩ := hplaying.apply_poll hearly hnone
    refine ⟨hticks, hafter.trans ?_⟩
    show (handedOut _ [] rest).delivered now = _
    rw [handedOut_nil hplaying.loop_eq, delivered_apply_poll]

/-! ## Polling more often -/

/-- A poll calls the backend for the ticks that it dispatches. -/
theorem calls_poll (seq : Sequencer Rat) (now : Rat) :
    (seq.apply (.poll now)).effects.filterMap Effect.call? =
      (seq.dispatchedBy (.poll now)).flatMap (·.calls seq.config.wrapPolicy) := by
  rw [calls_apply]
  exact List.append_nil _

/-- A poll tells the observers of the ticks that it announces. -/
theorem displays_poll (seq : Sequencer Rat) (now : Rat) :
    (seq.apply (.poll now)).effects.filterMap Effect.display? =
      (seq.announcedBy (.poll now)).map fun tick => .stepAdvance tick.step tick.patterns := by
  have hsounds : ((seq.dispatchedBy (.poll now)).flatMap
      (soundTick seq.config.wrapPolicy)).filterMap Effect.display? = [] := by
    rw [List.filterMap_eq_nil_iff]
    intro effect heffect
    obtain ⟨tick, _, heffect⟩ := List.mem_flatMap.mp heffect
    obtain ⟨call, _, rfl⟩ := List.mem_map.mp heffect
    rfl
  rw [effects_poll, List.filterMap_append, hsounds, List.nil_append, List.filterMap_map,
    ← List.filterMap_eq_map]
  rfl

theorem observers_poll (seq : Sequencer Rat) (now : Rat) :
    (seq.apply (.poll now)).sequencer.observers = seq.observers := by
  have htrans := transition_apply seq (.poll now)
  generalize (seq.apply (.poll now)).sequencer = after at htrans ⊢
  cases htrans with
  | stage hedit | silence hedit | swap hedit => cases hedit
  | _ => rfl

/-- As long as no tick of the loop becomes overdue for it, a poll does with another poll before it
what it does alone: the sequencer is the same in the end, and so are the backend calls and what each
observer is told.  A second poll at one time changes nothing and does nothing, in any case. -/
theorem extra_poll_changes_nothing (config : SequencerConfig Rat) (ops : List (Operation Rat))
    {a b : Rat} (hab : a ≤ b)
    (hearly : ∀ loop, ((new config).after ops).loop = some loop →
      b - config.lookahead ≤ loop.nextTime) :
    let seq := (new config).after ops
    seq.after [.poll a, .poll b] = seq.after [.poll b] ∧
      (seq.effects [.poll a, .poll b]).filterMap Effect.call? =
        (seq.effects [.poll b]).filterMap Effect.call? ∧
      (∀ observer, seq.told observer [.poll a, .poll b] = seq.told observer [.poll b]) ∧
      ∀ now, seq.after [.poll now, .poll now] = seq.after [.poll now] ∧
        seq.effects [.poll now, .poll now] = seq.effects [.poll now] := by
  intro seq
  have hontime : seq.OnTime := onTime_after config ops
  have hconfig : seq.config = config := config_after _ ops
  have hearly' : ∀ loop, seq.loop = some loop → b - seq.config.lookahead ≤ loop.nextTime := by
    rw [hconfig]
    exact hearly
  obtain ⟨hafter, hticks⟩ := hontime.polls_eq hab hearly'
  have hannounced := announcedBy_polls hab hticks
  refine ⟨hafter, ?_, ?_, ?_⟩
  · rw [effects_eq_collect, effects_eq_collect]
    simp only [collect, List.append_nil, List.filterMap_append, calls_poll, config_apply]
    rw [← List.flatMap_append, hticks]
  · intro observer
    simp only [told, collect, List.append_nil, observers_poll, displays_poll]
    split
    · rw [← List.map_append, hannounced]
    · rfl
  · intro now
    obtain ⟨hnone, hsame⟩ := hontime.poll_again now
    refine ⟨hsame, ?_⟩
    -- nothing that the first poll announces is left for the second
    have hagain := @announcedBy_polls seq now now le_rfl (by rw [hnone, List.append_nil])
    rw [List.append_right_eq_self] at hagain
    rw [effects_eq_collect, effects_eq_collect]
    simp only [collect, effects_poll _ now, hnone, hagain, List.append_nil, List.flatMap_nil,
      List.map_nil]

/-- The second kick is dispatched ahead by the first of two polls and announced by the second,
which does both when it is alone. -/
theorem extra_poll_changes_nothing_ahead :
    (3 / 16 : Rat) ≤ 5 / 16 ∧
      (∀ loop, ((new .standard).after (kicksStarted ++ [.poll 0])).loop = some loop →
        5 / 16 - (SequencerConfig.standard : SequencerConfig Rat).lookahead ≤ loop.nextTime) ∧
      ((new .standard).after (kicksStarted ++ [.poll 0])).after [.poll (3 / 16), .poll (5 / 16)] =
        ((new .standard).after (kicksStarted ++ [.poll 0])).after [.poll (5 / 16)] := by
  have hab : (3 / 16 : Rat) ≤ 5 / 16 := by norm_num
  have hearly : ∀ loop, ((new .standard).after (kicksStarted ++ [.poll 0])).loop = some loop →
      5 / 16 - (SequencerConfig.standard : SequencerConfig Rat).lookahead ≤ loop.nextTime := by
    have hloop : ((new .standard).after (kicksStarted ++ [.poll 0])).loop =
        some ⟨0, ⟨0, (0 : Rat), 1 / 4⟩, 1, 1, ⟨some (.ofWords ["kick", "kick"]), none, none⟩,
          some 0⟩ := by
      decide +kernel
    intro loop h
    rw [hloop] at h
    cases h
    decide +kernel
  exact ⟨hab, hearly, (extra_poll_changes_nothing .standard _ hab hearly).1⟩

end Sequencer

end Groovebox
