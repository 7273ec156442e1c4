import Groovebox.Proofs.Consistency

/-!
# Steps come round in order

What observers are told of a pattern set is its steps in order, round and round from step 0, however
often the transport pauses and resumes in between.  A start, a live swap and a resume with a staged
set begin a new group of steps; a resume without one goes on with the group that was paused.

Loops are numbered as they are installed, and a run keeps a list of which of them began a group.  A
pause is the hard case: it goes back over the ticks that were dispatched ahead and not announced,
which has to be all of the group's and no other's.  `GroupsInOrder` is what every operation keeps.
-/

namespace Groovebox

variable {τ : Type}

/-! ## Ticks in order -/

/-- Ticks that play the steps of a set from step 0 on, round and round. -/
structure InOrder (set : PatternSet) (ticks : List (Tick τ)) : Prop where
  patterns_eq : ∀ tick ∈ ticks, tick.patterns = set
  cycle_pos : ticks ≠ [] → 0 < set.cycleLength
  steps_eq : ticks.map (·.step) = (List.range ticks.length).map (· % set.cycleLength)

namespace InOrder

theorem nil (set : PatternSet) : InOrder set ([] : List (Tick τ)) where
  patterns_eq _ h := absurd h List.not_mem_nil
  cycle_pos h := absurd rfl h
  steps_eq := rfl

/-- Leaving off ticks at the end leaves the others in order. -/
theorem of_append {set : PatternSet} {a b : List (Tick τ)} (h : InOrder set (a ++ b)) :
    InOrder set a where
  patterns_eq tick htick := h.patterns_eq tick (List.mem_append_left b htick)
  cycle_pos hne := by
    refine h.cycle_pos ?_
    intro hnil
    exact hne (List.append_eq_nil_iff.mp hnil).1
  steps_eq := by
    have hsteps := h.steps_eq
    rw [List.map_append, List.length_append, List.range_add, List.map_append] at hsteps
    refine (List.append_inj hsteps ?_).1
    rw [List.length_map, List.length_map, List.length_range]

/-- The step of a tick is known from the number of ticks before it. -/
theorem step_eq {set : PatternSet} {a b : List (Tick τ)} {tick : Tick τ}
    (h : InOrder set (a ++ tick :: b)) : tick.step = a.length % set.cycleLength := by
  have hsteps := congrArg (·[a.length]?) h.steps_eq
  simp only [List.getElem?_map, List.length_append, List.length_cons] at hsteps
  rw [List.getElem?_append_right (Nat.le_refl _), Nat.sub_self, List.getElem?_cons_zero,
    List.getElem?_range (by omega)] at hsteps
  exact Option.some.inj hsteps

variable [TimeScale τ]

/-- A loop that stands at the step after some ticks goes on in order. -/
theorem append_nextTicks {loop : Loop τ} {ticks : List (Tick τ)} (h : InOrder loop.patterns ticks)
    (hstep : loop.nextStep < loop.cycle) (hnext : loop.nextStep = ticks.length % loop.cycle)
    (n : Nat) : InOrder loop.patterns (ticks ++ loop.nextTicks n) where
  patterns_eq tick htick := by
    rcases List.mem_append.mp htick with htick | htick
    · exact h.patterns_eq tick htick
    · obtain ⟨i, _, rfl⟩ := Loop.mem_nextTicks.mp htick
      exact Loop.patterns_advanceBy loop i
  cycle_pos _ := Nat.zero_lt_of_lt hstep
  steps_eq := by
    rw [List.map_append, h.steps_eq, List.length_append, Loop.length_nextTicks, List.range_add,
      List.map_append, List.map_map, Loop.nextTicks, List.map_map]
    congr 1
    refine List.map_congr_left ?_
    intro i _
    show (loop.advanceBy i).nextStep = (ticks.length + i) % loop.cycle
    rw [Loop.nextStep_advanceBy hstep, hnext, Nat.mod_add_mod]

end InOrder

/-! ## Groups -/

/-- The group of a loop, given for each loop installed whether it began a group. -/
def groupOf (installed : List Bool) (id : Nat) : Nat :=
  (installed.take (id + 1)).count true

/-- The group begun last. -/
def latestGroup (installed : List Bool) : Nat :=
  installed.count true

/-- The ticks of a group. -/
def ofGroup (installed : List Bool) (group : Nat) (ticks : List (Tick τ)) : List (Tick τ) :=
  ticks.filter fun tick => groupOf installed tick.loopId = group

/-- A loop stays in its group. -/
theorem groupOf_append {installed : List Bool} {id : Nat} (h : id < installed.length)
    (more : List Bool) : groupOf (installed ++ more) id = groupOf installed id := by
  rw [groupOf, groupOf, List.take_append_of_le_length h]

theorem groupOf_le_latestGroup (installed : List Bool) (id : Nat) :
    groupOf installed id ≤ latestGroup installed :=
  (List.take_sublist _ _).count_le true

/-- The loop installed last is in the latest group. -/
theorem groupOf_concat (installed : List Bool) (begins : Bool) :
    groupOf (installed ++ [begins]) installed.length = latestGroup (installed ++ [begins]) := by
  have hall : (installed ++ [begins]).length ≤ installed.length + 1 :=
    Nat.le_of_eq List.length_append
  rw [groupOf, latestGroup, List.take_of_length_le hall]

theorem ofGroup_append (installed : List Bool) (group : Nat) (a b : List (Tick τ)) :
    ofGroup installed group (a ++ b) = ofGroup installed group a ++ ofGroup installed group b :=
  List.filter_append ..

/-- The ticks of the loops that are installed, each group in order. -/
structure Grouped (installed : List Bool) (ticks : List (Tick τ)) : Prop where
  loopId_lt : ∀ tick ∈ ticks, tick.loopId < installed.length
  in_order : ∀ group, ∃ set, InOrder set (ofGroup installed group ticks)

namespace Grouped

theorem of_append {installed : List Bool} {a b : List (Tick τ)} (h : Grouped installed (a ++ b)) :
    Grouped installed a where
  loopId_lt tick htick := h.loopId_lt tick (List.mem_append_left b htick)
  in_order group := by
    obtain ⟨set, hset⟩ := h.in_order group
    rw [ofGroup_append] at hset
    exact ⟨set, hset.of_append⟩

/-- Installing loops moves no tick to another group. -/
theorem ofGroup_installed {installed : List Bool} {ticks : List (Tick τ)}
    (h : Grouped installed ticks) (more : List Bool) (group : Nat) :
    ofGroup (installed ++ more) group ticks = ofGroup installed group ticks := by
  refine List.filter_congr ?_
  intro tick htick
  rw [groupOf_append (h.loopId_lt tick htick)]

theorem install {installed : List Bool} {ticks : List (Tick τ)} (h : Grouped installed ticks)
    (more : List Bool) : Grouped (installed ++ more) ticks where
  loopId_lt tick htick := by
    rw [List.length_append]
    exact Nat.lt_of_lt_of_le (h.loopId_lt tick htick) (Nat.le_add_right _ _)
  in_order group := by
    rw [h.ofGroup_installed]
    exact h.in_order group

/-- A group that has just begun has no ticks yet. -/
theorem ofGroup_begun {installed : List Bool} {ticks : List (Tick τ)}
    (h : Grouped installed ticks) :
    ofGroup (installed ++ [true]) (latestGroup (installed ++ [true])) ticks = [] := by
  rw [h.ofGroup_installed, ofGroup, List.filter_eq_nil_iff]
  intro tick _
  have hle := groupOf_le_latestGroup installed tick.loopId
  have hnew : latestGroup (installed ++ [true]) = latestGroup installed + 1 := by
    rw [latestGroup, List.count_append, List.count_singleton_self, latestGroup]
  rw [decide_eq_true_iff]
  omega

end Grouped

/-! ## Groups of a run -/

variable [TimeScale τ]

/-- The running loop goes on with the latest group: all pending ticks of that group are its own, and
its next step is the one after those that the group has played. -/
structure Loop.Continues (loop : Loop τ) (installed : List Bool) (heard pending : List (Tick τ)) :
    Prop where
  group_eq : groupOf installed loop.id = latestGroup installed
  own : ∀ tick ∈ pending, groupOf installed tick.loopId = latestGroup installed →
    tick.loopId = loop.id
  in_order : InOrder loop.patterns (ofGroup installed (latestGroup installed) (heard ++ pending))
  nextStep_eq : loop.nextStep =
    (ofGroup installed (latestGroup installed) (heard ++ pending)).length % loop.cycle

/-- The ticks that a loop hands out are all of its group. -/
theorem ofGroup_nextTicks (installed : List Bool) (loop : Loop τ) (group n : Nat) :
    ofGroup installed group (loop.nextTicks n) =
      if groupOf installed loop.id = group then loop.nextTicks n else [] := by
  have hid : ∀ tick ∈ loop.nextTicks n, tick.loopId = loop.id := by
    intro tick htick
    obtain ⟨i, _, rfl⟩ := Loop.mem_nextTicks.mp htick
    exact Loop.id_advanceBy loop i
  split
  · next hgroup =>
    refine List.filter_eq_self.mpr ?_
    intro tick htick
    rw [hid tick htick, hgroup, decide_eq_true_iff]
  · next hgroup =>
    refine List.filter_eq_nil_iff.mpr ?_
    intro tick htick
    rw [hid tick htick, decide_eq_true_iff]
    exact hgroup

namespace Loop.Continues

variable {loop : Loop τ} {installed : List Bool} {heard pending : List (Tick τ)}

theorem ofGroup_append_nextTicks (h : loop.Continues installed heard pending) (n : Nat) :
    ofGroup installed (latestGroup installed) (heard ++ (pending ++ loop.nextTicks n)) =
      ofGroup installed (latestGroup installed) (heard ++ pending) ++ loop.nextTicks n := by
  rw [← List.append_assoc, ofGroup_append, ofGroup_nextTicks, if_pos h.group_eq]

/-- A loop that hands out ticks goes on with its group. -/
theorem advanceBy (h : loop.Continues installed heard pending) (hstep : loop.nextStep < loop.cycle)
    (n : Nat) : (loop.advanceBy n).Continues installed heard (pending ++ loop.nextTicks n) where
  group_eq := by
    rw [id_advanceBy]
    exact h.group_eq
  own tick htick hgroup := by
    rw [id_advanceBy]
    rcases List.mem_append.mp htick with htick | htick
    · exact h.own tick htick hgroup
    · obtain ⟨i, _, rfl⟩ := mem_nextTicks.mp htick
      exact id_advanceBy loop i
  in_order := by
    rw [h.ofGroup_append_nextTicks, patterns_advanceBy]
    exact h.in_order.append_nextTicks hstep h.nextStep_eq n
  nextStep_eq := by
    rw [h.ofGroup_append_nextTicks, nextStep_advanceBy hstep, cycle_advanceBy, h.nextStep_eq,
      List.length_append, length_nextTicks, Nat.mod_add_mod]

/-- The ticks of all groups stay in order when a loop hands out ticks. -/
theorem grouped (h : loop.Continues installed heard pending)
    (hgrouped : Grouped installed (heard ++ pending)) (hid : loop.id < installed.length)
    (hstep : loop.nextStep < loop.cycle) (n : Nat) :
    Grouped installed (heard ++ (pending ++ loop.nextTicks n)) where
  loopId_lt tick htick := by
    rw [← List.append_assoc] at htick
    rcases List.mem_append.mp htick with htick | htick
    · exact hgrouped.loopId_lt tick htick
    · obtain ⟨i, _, rfl⟩ := mem_nextTicks.mp htick
      exact Nat.lt_of_le_of_lt (Nat.le_of_eq (id_advanceBy loop i)) hid
  in_order group := by
    by_cases hgroup : groupOf installed loop.id = group
    · have hlatest : group = latestGroup installed := hgroup.symm.trans h.group_eq
      rw [hlatest]
      refine ⟨loop.patterns, ?_⟩
      rw [h.ofGroup_append_nextTicks]
      exact h.in_order.append_nextTicks hstep h.nextStep_eq n
    · rw [← List.append_assoc, ofGroup_append, ofGroup_nextTicks, if_neg hgroup, List.append_nil]
      exact hgrouped.in_order group

end Loop.Continues

namespace Sequencer

/-- The loops that an operation installs, given the state that it leads to: for each whether it
begins a group.  Only a resume without a staged set does not. -/
def installs (seq : Sequencer τ) (op : Operation τ) (after : TransportState) : List Bool :=
  match op.edit? with
  | some (patterns, _) => if seq.state = .running ∧ 0 < patterns.cycleLength then [true] else []
  | none =>
    if seq.state ≠ .running ∧ after = .running then
      [decide (seq.state = .stopped) || seq.staged.isSome]
    else []

/-- The loops that a run installs. -/
def installed (seq : Sequencer τ) (ops : List (Operation τ)) : List Bool :=
  seq.collect (fun seq op => seq.installs op (seq.apply op).sequencer.state) ops

/-- The ticks that an operation steps over. -/
def skippedBy (seq : Sequencer τ) : Operation τ → List Nat
  | .poll now =>
    match seq.state, seq.loop with
    | .running, some loop =>
      List.range' loop.nextTick
        ((loop.skipBefore (now - seq.config.lookahead)).nextTick - loop.nextTick)
    | _, _ => []
  | _ => []

/-- The ticks that the polls of a run step over. -/
def skipped (seq : Sequencer τ) (ops : List (Operation τ)) : List Nat :=
  seq.collect skippedBy ops

/-- What a run keeps of the steps that observers were told of: the groups are in order so far, and
the transport goes on where the latest one is. -/
structure GroupsInOrder (seq : Sequencer τ) (installed : List Bool) (heard : List (Tick τ)) :
    Prop where
  length_eq : installed.length = seq.nextLoopId
  grouped : Grouped installed (heard ++ seq.pending)
  of_loop : ∀ loop, seq.loop = some loop → loop.Continues installed heard seq.pending
  of_paused : seq.state = .paused → seq.staged = none → 0 < seq.patterns.cycleLength →
    InOrder seq.patterns (ofGroup installed (latestGroup installed) heard) ∧
      seq.step = (ofGroup installed (latestGroup installed) heard).length % seq.patterns.cycleLength

/-- Nothing is pending while the transport is paused. -/
theorem Coherent.pending_of_paused {seq : Sequencer τ} (h : seq.Coherent)
    (hpaused : seq.state = .paused) : seq.pending = [] := by
  refine (h.of_not_running ?_).2
  rw [hpaused]
  decide

/-- A poll that steps over no tick hands out the next ticks of its loop. -/
theorem window_eq_nextTicks {seq : Sequencer τ} {loop : Loop τ} {now : τ}
    (hrun : seq.state = .running) (hloop : seq.loop = some loop)
    (hskip : seq.skippedBy (.poll now) = []) :
    ∃ n, seq.window loop now = (loop.nextTicks n, loop.advanceBy n) := by
  have hself : loop.skipBefore (now - seq.config.lookahead) = loop := by
    rw [skippedBy, hrun, hloop] at hskip
    dsimp only at hskip
    rw [List.range'_eq_nil_iff] at hskip
    exact Loop.skipBefore_eq_self (Nat.le_of_sub_eq_zero hskip)
  obtain ⟨n, heq⟩ := seq.exists_window_eq loop now
  rw [hself] at heq
  exact ⟨n, heq⟩

namespace GroupsInOrder

variable {seq : Sequencer τ} {installed : List Bool} {heard : List (Tick τ)}

/-- The due ticks, once announced, are no longer pending. -/
theorem delivered (h : seq.GroupsInOrder installed heard) (hcoherent : seq.Coherent) (now : τ) :
    (seq.delivered now).GroupsInOrder installed (heard ++ seq.due now) := by
  have hticks : heard ++ seq.due now ++ seq.undue now = heard ++ seq.pending := by
    rw [List.append_assoc, due_append_undue]
  refine ⟨h.length_eq, ?_, ?_, ?_⟩
  · show Grouped installed (heard ++ seq.due now ++ seq.undue now)
    rw [hticks]
    exact h.grouped
  · intro loop hloop
    have hcontinues := h.of_loop loop hloop
    show loop.Continues installed (heard ++ seq.due now) (seq.undue now)
    refine ⟨hcontinues.group_eq, ?_, ?_, ?_⟩
    · intro tick htick
      exact hcontinues.own tick (mem_of_mem_undue htick)
    · rw [hticks]
      exact hcontinues.in_order
    · rw [hticks]
      exact hcontinues.nextStep_eq
  · intro hpaused hstaged hcycle
    have hdue : seq.due now = [] := by
      rw [due, hcoherent.pending_of_paused hpaused, List.takeWhile_nil]
    rw [hdue, List.append_nil]
    exact h.of_paused hpaused hstaged hcycle

/-- Ticks that the running loop hands out belong to the latest group and are in order. -/
theorem handedOut (h : seq.GroupsInOrder installed heard) (hcoherent : seq.Coherent)
    {loop : Loop τ} (hloop : seq.loop = some loop) (n : Nat) :
    (seq.handedOut (loop.nextTicks n) (loop.advanceBy n)).GroupsInOrder installed heard := by
  obtain ⟨hrun, hplays⟩ := hcoherent.loop_plays hloop
  have hcontinues := h.of_loop loop hloop
  have hstep : loop.nextStep < loop.cycle := hplays.nextStep_lt_cycle
  have hid : loop.id < installed.length := by
    rw [h.length_eq]
    exact hcoherent.loop_id_lt loop hloop
  refine ⟨h.length_eq, hcontinues.grouped h.grouped hid hstep n, ?_, ?_⟩
  · intro rest hrest
    cases hrest
    exact hcontinues.advanceBy hstep n
  · intro hpaused
    have hpaused : seq.state = .paused := hpaused
    rw [hrun] at hpaused
    cases hpaused

/-- A loop that is installed at step 0 begins a group. -/
theorem begins {seq : Sequencer τ} (hlength : installed.length = seq.nextLoopId)
    (hgrouped : Grouped installed (heard ++ seq.pending)) (hrun : seq.state = .running)
    (hstep : seq.step = 0) (time : τ) :
    (seq.installLoop time).GroupsInOrder (installed ++ [true]) heard := by
  refine ⟨?_, hgrouped.install [true], ?_, ?_⟩
  · rw [List.length_append, hlength]
    rfl
  · intro loop hloop
    cases hloop
    refine ⟨?_, ?_, ?_, ?_⟩
    · rw [← hlength]
      exact groupOf_concat installed true
    · -- the group has just begun, so that no pending tick is in it
      intro tick htick hgroup
      have hmem : tick ∈ ofGroup (installed ++ [true]) (latestGroup (installed ++ [true]))
          (heard ++ seq.pending) := by
        refine List.mem_filter.mpr ⟨List.mem_append_right heard htick, ?_⟩
        rw [hgroup, decide_eq_true_iff]
      rw [hgrouped.ofGroup_begun] at hmem
      exact absurd hmem List.not_mem_nil
    · show InOrder _ (ofGroup _ _ (heard ++ seq.pending))
      rw [hgrouped.ofGroup_begun]
      exact InOrder.nil _
    · show seq.step = (ofGroup _ _ (heard ++ seq.pending)).length % _
      rw [hgrouped.ofGroup_begun, hstep, List.length_nil, Nat.zero_mod]
  · intro hpaused
    have hpaused : seq.state = .paused := hpaused
    rw [hrun] at hpaused
    cases hpaused

/-- A resume without a staged set goes on with the group that was paused. -/
theorem resumes (h : seq.GroupsInOrder installed heard) (hcoherent : seq.Coherent)
    (hpaused : seq.state = .paused) (hstaged : seq.staged = none)
    (hcycle : 0 < seq.patterns.cycleLength) (now : τ) :
    ({ seq with step := seq.step % seq.patterns.cycleLength, state := .running }.installLoop
      now).GroupsInOrder (installed ++ [false]) heard := by
  obtain ⟨hset, hstep⟩ := h.of_paused hpaused hstaged hcycle
  have hpending : seq.pending = [] := hcoherent.pending_of_paused hpaused
  have hlatest : latestGroup (installed ++ [false]) = latestGroup installed := by
    rw [latestGroup, List.count_append, latestGroup]
    rfl
  have hheard : ofGroup (installed ++ [false]) (latestGroup (installed ++ [false]))
      (heard ++ seq.pending) = ofGroup installed (latestGroup installed) heard := by
    rw [h.grouped.ofGroup_installed, hlatest, hpending, List.append_nil]
  refine ⟨?_, h.grouped.install [false], ?_, ?_⟩
  · rw [List.length_append, h.length_eq]
    rfl
  · intro loop hloop
    cases hloop
    refine ⟨?_, ?_, ?_, ?_⟩
    · rw [← h.length_eq]
      exact groupOf_concat installed false
    · intro tick htick
      have htick : tick ∈ seq.pending := htick
      rw [hpending] at htick
      exact absurd htick List.not_mem_nil
    · show InOrder seq.patterns (ofGroup _ _ (heard ++ seq.pending))
      rw [hheard]
      exact hset
    · show seq.step % seq.patterns.cycleLength =
        (ofGroup _ _ (heard ++ seq.pending)).length % seq.patterns.cycleLength
      rw [hheard, hstep, Nat.mod_mod]
  · intro hstate
    cases hstate

/-- A pause goes back to the step after those of the latest group that are announced. -/
theorem unheardStep_eq (h : seq.GroupsInOrder installed heard) (hcoherent : seq.Coherent)
    (hrun : seq.state = .running) (hcycle : 0 < seq.patterns.cycleLength) (now : τ) :
    InOrder seq.patterns (ofGroup installed (latestGroup installed) (heard ++ seq.due now)) ∧
      seq.unheardStep now =
        (ofGroup installed (latestGroup installed) (heard ++ seq.due now)).length %
          seq.patterns.cycleLength := by
  obtain ⟨loop, hloop, hplays⟩ : ∃ loop, seq.loop = some loop ∧
      loop.Plays seq.patterns seq.stepDuration := by
    rcases (hcoherent.of_running hrun).2 with ⟨hzero, _⟩ | hloop
    · omega
    · exact hloop
  have hcontinues := h.of_loop loop hloop
  have hsplit : ofGroup installed (latestGroup installed) (heard ++ seq.pending) =
      ofGroup installed (latestGroup installed) (heard ++ seq.due now) ++
        ofGroup installed (latestGroup installed) (seq.undue now) := by
    rw [← ofGroup_append, List.append_assoc, due_append_undue]
  -- the unannounced ticks of the group are those with the number of the running loop
  have hown : ofGroup installed (latestGroup installed) (seq.undue now) =
      (seq.undue now).filter (·.loopId = loop.id) := by
    refine List.filter_congr ?_
    intro tick htick
    rw [decide_eq_decide]
    constructor
    · intro hgroup
      exact hcontinues.own tick (mem_of_mem_undue htick) hgroup
    · intro hid
      rw [hid]
      exact hcontinues.group_eq
  have hset := hcontinues.in_order
  rw [hsplit, hplays.patterns_eq] at hset
  refine ⟨hset.of_append, ?_⟩
  -- the step gone back to is that of the first unannounced tick, or the loop's next one
  rw [unheardStep, hloop]
  dsimp only
  rw [← List.head?_filter, ← hown]
  cases hrest : ofGroup installed (latestGroup installed) (seq.undue now) with
  | nil =>
    show loop.nextStep = _
    rw [hcontinues.nextStep_eq, hsplit, hrest, List.append_nil, Loop.cycle, hplays.patterns_eq]
  | cons tick rest =>
    rw [hrest] at hset
    exact hset.step_eq

/-- A halt announces the due ticks and gives up the others. -/
theorem halted (h : seq.GroupsInOrder installed heard) (now : τ) {state : TransportState}
    {step : Nat}
    (hpaused : state = .paused → 0 < seq.patterns.cycleLength →
      InOrder seq.patterns (ofGroup installed (latestGroup installed) (heard ++ seq.due now)) ∧
        step = (ofGroup installed (latestGroup installed) (heard ++ seq.due now)).length %
          seq.patterns.cycleLength) :
    (seq.halted state step).GroupsInOrder installed (heard ++ seq.due now) := by
  have hgrouped := h.grouped
  rw [← due_append_undue seq now, ← List.append_assoc] at hgrouped
  refine ⟨h.length_eq, ?_, ?_, ?_⟩
  · show Grouped installed (heard ++ seq.due now ++ [])
    rw [List.append_nil]
    exact hgrouped.of_append
  · intro loop hloop
    cases hloop
  · intro hstate _ hcycle
    exact hpaused hstate hcycle

end GroupsInOrder

/-! ## Every operation keeps the groups in order -/

theorem announcedBy_of_edit {seq : Sequencer τ} {op : Operation τ} {edit : PatternSet × τ}
    (h : op.edit? = some edit) : seq.announcedBy op = [] := by
  cases op with
  | replacePatterns => rfl
  | submitText => rfl
  | _ => cases h

omit [TimeScale τ] in
theorem installs_of_edit {seq : Sequencer τ} {op : Operation τ} {patterns : PatternSet} {now : τ}
    (h : op.edit? = some (patterns, now)) (after : TransportState) :
    seq.installs op after =
      if seq.state = .running ∧ 0 < patterns.cycleLength then [true] else [] := by
  rw [installs, h]

omit [TimeScale τ] in
/-- An operation that is not an edit installs a loop only when it makes the transport run. -/
theorem installs_eq_nil {seq : Sequencer τ} {op : Operation τ} {after : TransportState}
    (hedit : op.edit? = none) (hstate : after = .running → seq.state = .running) :
    seq.installs op after = [] := by
  rw [installs, hedit]
  exact if_neg fun h => h.1 (hstate h.2)

/-- Every transition keeps the groups in order, unless it steps over ticks. -/
theorem GroupsInOrder.transition {seq after : Sequencer τ} {op : Operation τ}
    {installed : List Bool} {heard : List (Tick τ)} (h : seq.GroupsInOrder installed heard)
    (hcoherent : seq.Coherent) (hskip : seq.skippedBy op = []) (htrans : Transition seq op after) :
    after.GroupsInOrder (installed ++ seq.installs op after.state)
      (heard ++ seq.announcedBy op) := by
  -- most operations neither install a loop nor announce a tick
  have hquiet : ∀ {after : Sequencer τ}, after.GroupsInOrder installed heard →
      seq.installs op after.state = [] → seq.announcedBy op = [] →
        after.GroupsInOrder (installed ++ seq.installs op after.state)
          (heard ++ seq.announcedBy op) := by
    intro after hafter hinstalls hannounced
    rw [hinstalls, hannounced, List.append_nil, List.append_nil]
    exact hafter
  cases htrans with
  | subscribe =>
    exact hquiet ⟨h.length_eq, h.grouped, h.of_loop, h.of_paused⟩ (installs_eq_nil rfl id) rfl
  | stage hedit hne =>
    refine hquiet ⟨h.length_eq, h.grouped, h.of_loop, fun _ hnone => by cases hnone⟩ ?_
      (announcedBy_of_edit hedit)
    rw [installs_of_edit hedit]
    exact if_neg fun hrun => hne hrun.1
  | silence hedit hrun hcycle =>
    refine hquiet ⟨h.length_eq, h.grouped, ?_, ?_⟩ ?_ (announcedBy_of_edit hedit)
    · intro loop hloop
      cases hloop
    · intro _ _ hpos
      exact absurd hcycle (Nat.ne_of_gt hpos)
    · rw [installs_of_edit hedit]
      exact if_neg fun hpos => absurd hcycle (Nat.ne_of_gt hpos.2)
  | swap hedit hrun hcycle =>
    rw [installs_of_edit hedit, if_pos ⟨hrun, hcycle⟩, announcedBy_of_edit hedit, List.append_nil]
    refine GroupsInOrder.begins ?_ ?_ ?_ rfl _
    · exact h.length_eq
    · exact h.grouped
    · exact hrun
  | startIgnored => exact hquiet h (installs_eq_nil rfl id) rfl
  | startRefused hstopped =>
    refine hquiet ⟨h.length_eq, h.grouped, h.of_loop, ?_⟩ (installs_eq_nil rfl id) rfl
    intro hpaused
    have hpaused : seq.state = .paused := hpaused
    rw [hstopped] at hpaused
    cases hpaused
  | @start clock hstopped hcycle =>
    have hinstalls : seq.installs (.start clock) .running = [true] := by
      rw [installs]
      simp [Operation.edit?, hstopped]
    show GroupsInOrder _ (installed ++ seq.installs _ .running) (heard ++ [])
    rw [hinstalls, List.append_nil]
    refine GroupsInOrder.begins ?_ ?_ rfl rfl _
    · exact h.length_eq
    · exact h.grouped
  | pauseIgnored hne =>
    refine hquiet h (installs_eq_nil rfl id) ?_
    rw [announcedBy, if_neg hne]
  | @pause now hrun =>
    have hinstalls : seq.installs (.pause now) .paused = [] :=
      installs_eq_nil rfl fun hstate => by cases hstate
    show GroupsInOrder _ (installed ++ seq.installs (.pause now) .paused) _
    rw [hinstalls, List.append_nil, announcedBy, if_pos hrun]
    exact h.halted now fun _ hcycle => h.unheardStep_eq hcoherent hrun hcycle now
  | resumeIgnored => exact hquiet h (installs_eq_nil rfl id) rfl
  | resumeRefused hpaused hcycle =>
    refine hquiet ?_ ?_ rfl
    · rw [rewindToStaged] at hcycle ⊢
      split
      · next patterns hstaged =>
        rw [hstaged] at hcycle
        exact ⟨h.length_eq, h.grouped, h.of_loop,
          fun _ _ hpos => absurd hcycle (Nat.ne_of_gt hpos)⟩
      · exact h
    · refine installs_eq_nil rfl ?_
      rw [state_rewindToStaged]
      exact id
  | @resume now hpaused hcycle =>
    have hinstalls : seq.installs (.resume now) .running = [seq.staged.isSome] := by
      rw [installs]
      simp [Operation.edit?, hpaused]
    show GroupsInOrder _ (installed ++ seq.installs (.resume now) .running) (heard ++ [])
    rw [hinstalls, List.append_nil]
    -- a staged set begins a group, and without one the paused group goes on
    cases hstaged : seq.staged with
    | none =>
      have hsame : seq.rewindToStaged = seq := by
        rw [rewindToStaged, hstaged]
      rw [hsame] at hcycle ⊢
      exact h.resumes hcoherent hpaused hstaged hcycle now
    | some patterns =>
      have hrewound : seq.rewindToStaged =
          { seq with patterns := patterns, staged := none, step := 0 } := by
        rw [rewindToStaged, hstaged]
      rw [hrewound]
      refine GroupsInOrder.begins ?_ ?_ rfl ?_ now
      · exact h.length_eq
      · exact h.grouped
      · exact Nat.zero_mod _
  | @stop now =>
    have hinstalls : seq.installs (.stop now) .stopped = [] :=
      installs_eq_nil rfl fun hstate => by cases hstate
    show GroupsInOrder _ (installed ++ seq.installs (.stop now) .stopped) _
    rw [hinstalls, List.append_nil]
    exact h.halted now fun hstate => by cases hstate
  | setTempo =>
    refine hquiet ⟨h.length_eq, h.grouped, ?_, h.of_paused⟩ (installs_eq_nil rfl id) rfl
    intro loop hloop
    obtain ⟨loop', hloop', rfl⟩ := Option.map_eq_some_iff.mp hloop
    have hcontinues := h.of_loop loop' hloop'
    exact ⟨hcontinues.group_eq, hcontinues.own, hcontinues.in_order, hcontinues.nextStep_eq⟩
  | @pollIdle now hidle =>
    have hinstalls : seq.installs (.poll now) seq.state = [] := installs_eq_nil rfl id
    show GroupsInOrder _ (installed ++ seq.installs (.poll now) seq.state) _
    rw [hinstalls, List.append_nil, announcedBy, fillWindow_of_idle hidle]
    exact h.delivered hcoherent now
  | @poll now loop hrun hloop =>
    obtain ⟨n, hwindow⟩ := window_eq_nextTicks hrun hloop hskip
    have hinstalls : seq.installs (.poll now) seq.state = [] := installs_eq_nil rfl id
    show GroupsInOrder _ (installed ++ seq.installs (.poll now) seq.state) _
    rw [hinstalls, List.append_nil, announcedBy, fillWindow_of_loop hrun hloop]
    have hhanded := hcoherent.handedOut hloop now
    rw [hwindow] at hhanded ⊢
    exact (h.handedOut hcoherent hloop n).delivered hhanded now

/-! ## Groups after a run -/

theorem groupsInOrder_new (config : SequencerConfig τ) :
    (new config).GroupsInOrder [] [] := by
  refine ⟨rfl, ⟨?_, ?_⟩, ?_, ?_⟩
  · intro tick htick
    exact absurd htick List.not_mem_nil
  · intro group
    exact ⟨.empty, InOrder.nil _⟩
  · intro loop hloop
    cases hloop
  · intro hpaused
    cases hpaused

theorem GroupsInOrder.after {seq : Sequencer τ} {installed : List Bool} {heard : List (Tick τ)}
    (h : seq.GroupsInOrder installed heard) (hcoherent : seq.Coherent)
    {ops : List (Operation τ)} (hskip : seq.skipped ops = []) :
    (seq.after ops).GroupsInOrder (installed ++ seq.installed ops)
      (heard ++ seq.announced ops) := by
  induction ops generalizing seq installed heard with
  | nil =>
    show seq.GroupsInOrder (installed ++ []) (heard ++ [])
    rw [List.append_nil, List.append_nil]
    exact h
  | cons op rest ih =>
    obtain ⟨hop, hrest⟩ := List.append_eq_nil_iff.mp hskip
    have htrans := transition_apply seq op
    have hafter := ih (h.transition hcoherent hop htrans) (hcoherent.transition htrans) hrest
    rw [List.append_assoc, List.append_assoc] at hafter
    exact hafter

/-- The steps that observers are told of a group are 0, 1, 2 and so on in the cycle of the group's
set, in every run whose polls step over no tick.  The loop with a number is the one installed at
that place of the run's list, which says whether it began a group or went on with one. -/
theorem announced_groups_in_order (config : SequencerConfig τ) (ops : List (Operation τ))
    (hskip : (new config).skipped ops = []) :
    ((new config).effects ops).filterMap Effect.stepAdvance? =
        ((new config).announced ops).map (fun tick => (tick.step, tick.patterns)) ∧
      (∀ tick ∈ (new config).announced ops, tick.loopId < ((new config).installed ops).length) ∧
      ∀ group, ∃ set,
        InOrder set (ofGroup ((new config).installed ops) group ((new config).announced ops)) := by
  have h := (groupsInOrder_new config).after (coherent_new config) hskip
  rw [List.nil_append, List.nil_append] at h
  have hgrouped := h.grouped.of_append
  exact ⟨stepAdvances_eq_announced _ ops, hgrouped.loopId_lt, hgrouped.in_order⟩

/-- The transport pauses while the second step is dispatched and not announced; after it has resumed
and the set is played through, another set is swapped in. -/
def pausedAhead : List (Operation Rat) :=
  [.replacePatterns ⟨some (.ofWords ["kick", "snare", "clap"]), none, none⟩ 0,
    .start ⟨0, true, none⟩, .poll 0, .poll (3 / 16), .pause (3 / 16), .resume 1, .poll 1,
    .poll (5 / 4), .replacePatterns ⟨some (.ofWords ["kick"]), none, none⟩ (5 / 4), .poll (3 / 2)]

/-- No tick is skipped.  The three loops make two groups, as the resumed loop goes on with the group
of the first one, and in each group the steps are announced in order: 0, 1, 2 and then 0. -/
theorem announced_groups_in_order_paused :
    (new .standard).skipped pausedAhead = [] ∧
      (new .standard).installed pausedAhead = [true, false, true] ∧
      ((new .standard).announced pausedAhead).map (·.step) = [0, 1, 2, 0] ∧
      ∀ group, ∃ set, InOrder set
        (ofGroup ((new .standard).installed pausedAhead) group
          ((new .standard).announced pausedAhead)) := by
  have hskip : (new .standard).skipped pausedAhead = [] := by decide +kernel
  refine ⟨hskip, ?_, ?_, (announced_groups_in_order .standard pausedAhead hskip).2.2⟩
  · decide +kernel
  · decide +kernel

end Sequencer

end Groovebox
