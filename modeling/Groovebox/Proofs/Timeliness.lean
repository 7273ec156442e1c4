import Groovebox.Proofs.TickFates
import Groovebox.Proofs.TickOrder
import Mathlib.Data.List.Infix
import Mathlib.Data.List.TakeWhile

/-!
# Announcements in time

A poll, a pause and a stop look at the front of the queue of pending ticks only.  They announce all
ticks that are due if the queue is in the order of time, through all the loops that have put ticks
into it.  When the operations' times do not go back, it is in order if and only if each loop that
begins while the transport runs without one begins no earlier than what is still pending
(`RestartsInTurn`, `announced_in_time_iff`): the others take over a slot or begin with an empty
queue.

`InTurn` is what every operation keeps.  It speaks of the ticks announced so far as well, since a
restart is in turn with those anyway: they are not later than the operation that restarts.
-/

namespace Groovebox

/-- An edit is given a time. -/
theorem Operation.time?_of_edit? {τ : Type} {op : Operation τ} {patterns : PatternSet} {now : τ}
    (h : op.edit? = some (patterns, now)) : op.time? = some now := by
  cases op with
  | replacePatterns patterns' now' =>
    cases h
    rfl
  | submitText text now' =>
    cases h
    rfl
  | _ => cases h

namespace Sequencer

/-! ## Loops from a time on -/

/-- If there is a loop, it plays no tick before a time. -/
def Clear (seq : Sequencer Rat) (time : Rat) : Prop :=
  ∀ loop, seq.loop = some loop → ∀ earlier < time, loop.PlaysAfter earlier

/-- No operation at or after a time leads back before it. -/
theorem Clear.transition {seq after : Sequencer Rat} {op : Operation Rat} {time : Rat}
    (h : seq.Clear time) (hontime : seq.OnTime) (hop : ∀ now, op.time? = some now → time ≤ now)
    (htrans : Transition seq op after) : after.Clear time := by
  cases htrans with
  | subscribe => exact h
  | stage => exact h
  | silence => exact fun _ hnone => by cases hnone
  | @swap _ patterns now hedit _ _ =>
    intro new hnew earlier hearlier
    refine playsAfter_installLoop ?_ hnew
    rw [slot]
    cases hold : seq.loop with
    | none => exact lt_of_lt_of_le hearlier (hop now (Operation.time?_of_edit? hedit))
    | some loop =>
      exact lt_of_lt_of_le (h loop hold earlier hearlier).lt_nextTime (TimeScale.le_latest _ _)
  | startIgnored => exact h
  | startRefused => exact h
  | start =>
    intro new hnew earlier hearlier
    exact playsAfter_installLoop (lt_of_lt_of_le hearlier (hop _ rfl)) hnew
  | pauseIgnored => exact h
  | pause => exact fun _ hnone => by cases hnone
  | resumeIgnored => exact h
  | resumeRefused =>
    intro loop hloop
    rw [loop_rewindToStaged] at hloop
    exact h loop hloop
  | resume =>
    intro new hnew earlier hearlier
    exact playsAfter_installLoop (lt_of_lt_of_le hearlier (hop _ rfl)) hnew
  | stop => exact fun _ hnone => by cases hnone
  | setTempo =>
    intro new hnew earlier hearlier
    obtain ⟨loop, hold, rfl⟩ := Option.map_eq_some_iff.mp hnew
    exact (h loop hold earlier hearlier).retempo (hontime.loop_onGrid loop hold)
      ((Tempo.inRange_ofBpm _).stepDuration_pos _)
  | pollIdle => exact h
  | @poll now loop _ hold =>
    intro rest hrest earlier hearlier
    cases hrest
    have hgrid : loop.OnGrid := hontime.loop_onGrid loop hold
    rw [seq.window_eq hgrid (hontime.loop_plays hold).2.nextStep_lt_cycle]
    exact ((h loop hold earlier hearlier).skip hgrid _).advanceBy (hgrid.skip _) _

/-- A tick that is dispatched is not before the time that its sequencer is clear of. -/
theorem Clear.le_of_mem_dispatchedBy {seq : Sequencer Rat} {op : Operation Rat} {time : Rat}
    (h : seq.Clear time) (hontime : seq.OnTime) {tick : Tick Rat}
    (htick : tick ∈ seq.dispatchedBy op) : time ≤ tick.time := by
  obtain ⟨_, loop, _, hrun, hloop, _⟩ := exists_window_of_mem_dispatchedBy htick
  by_contra hlt
  have hbeyond : seq.Beyond tick.time := by
    refine ⟨hrun, ?_⟩
    intro loop' hloop'
    exact h loop' hloop' tick.time (not_le.mp hlt)
  exact lt_irrefl _ (hbeyond.lt_of_mem_dispatchedBy hontime htick)

/-- Operations at or after a time dispatch no tick before it. -/
theorem Clear.le_of_mem_dispatched {seq : Sequencer Rat} {ops : List (Operation Rat)} {time : Rat}
    (h : seq.Clear time) (hontime : seq.OnTime)
    (hops : ∀ now ∈ ops.filterMap Operation.time?, time ≤ now) {tick : Tick Rat}
    (htick : tick ∈ seq.dispatched ops) : time ≤ tick.time := by
  induction ops generalizing seq with
  | nil => exact absurd htick List.not_mem_nil
  | cons op rest ih =>
    rw [dispatched, collect, ← dispatched, List.mem_append] at htick
    rcases htick with htick | htick
    · exact h.le_of_mem_dispatchedBy hontime htick
    · refine ih (h.transition hontime ?_ (transition_apply seq op)) (hontime.apply op) ?_ htick
      · intro now hnow
        exact hops now (List.mem_filterMap.mpr ⟨op, List.mem_cons_self, hnow⟩)
      · intro now hnow
        obtain ⟨op', hop', heq⟩ := List.mem_filterMap.mp hnow
        exact hops now (List.mem_filterMap.mpr ⟨op', .tail _ hop', heq⟩)

/-! ## Restarts in turn -/

/-- A restart plays its first tick no earlier than any tick that is pending when it comes. -/
def RestartsInTurn (seq : Sequencer Rat) (ops : List (Operation Rat)) : Prop :=
  ∀ first op now stretch more, ops = first ++ op :: (stretch ++ more) →
    (∀ op ∈ stretch, op.halts = false) → (seq.after first).RestartsAt op now →
      ∀ tick ∈ (seq.after first).pending,
        ∀ next ∈ (((seq.after first).apply op).sequencer.dispatched stretch).head?,
          tick.time ≤ next.time

theorem RestartsInTurn.tail {seq : Sequencer Rat} {op : Operation Rat} {rest : List (Operation Rat)}
    (h : seq.RestartsInTurn (op :: rest)) : (seq.apply op).sequencer.RestartsInTurn rest := by
  intro first op' now stretch more heq
  exact h (op :: first) op' now stretch more (congrArg (op :: ·) heq)

/-- Times in order are in order from the next operation on. -/
theorem times_tail {op : Operation Rat} {rest : List (Operation Rat)}
    (h : ((op :: rest).filterMap Operation.time?).Pairwise (· ≤ ·)) :
    (rest.filterMap Operation.time?).Pairwise (· ≤ ·) :=
  h.sublist ((List.sublist_cons_self op rest).filterMap _)

/-- Times in order are not before an earlier one. -/
theorem le_of_times {first rest : List (Operation Rat)} {op : Operation Rat} {a b : Rat}
    (h : ((first ++ op :: rest).filterMap Operation.time?).Pairwise (· ≤ ·))
    (ha : op.time? = some a) (hb : b ∈ rest.filterMap Operation.time?) : a ≤ b := by
  rw [List.filterMap_append, List.pairwise_append, List.filterMap_cons_some ha,
    List.pairwise_cons] at h
  exact h.2.1.1 b hb

/-- What is announced is not later than the operations after it. -/
theorem le_of_mem_announced {seq : Sequencer Rat} {first rest : List (Operation Rat)}
    (h : ((first ++ rest).filterMap Operation.time?).Pairwise (· ≤ ·)) {tick : Tick Rat}
    (htick : tick ∈ seq.announced first) {now : Rat} (hnow : now ∈ rest.filterMap Operation.time?) :
    tick.time ≤ now := by
  obtain ⟨before, op, after, rfl, hmem⟩ := exists_of_mem_collect htick
  obtain ⟨time, htime, hle⟩ := le_of_mem_announcedBy hmem
  rw [List.append_assoc, List.cons_append] at h
  refine hle.trans (le_of_times h htime ?_)
  rw [List.filterMap_append]
  exact List.mem_append_right _ hnow

theorem RestartsAt.time_eq {seq : Sequencer Rat} {op : Operation Rat} {now : Rat}
    (h : seq.RestartsAt op now) : op.time? = some now := by
  obtain ⟨_, _, _, hedit, _⟩ := h
  exact Operation.time?_of_edit? hedit

/-- A restart plays nothing before its own time. -/
theorem RestartsAt.le_of_mem_dispatched {seq : Sequencer Rat} {op : Operation Rat} {now : Rat}
    (h : seq.RestartsAt op now) (hontime : seq.OnTime) {rest : List (Operation Rat)}
    (htimes : ((op :: rest).filterMap Operation.time?).Pairwise (· ≤ ·)) {tick : Tick Rat}
    (htick : tick ∈ (seq.apply op).sequencer.dispatched rest) : now ≤ tick.time := by
  have hclear : seq.Clear now := by
    intro loop hloop
    rw [h.2.1] at hloop
    cases hloop
  refine (hclear.transition hontime ?_ (transition_apply seq op)).le_of_mem_dispatched
    (hontime.apply op) ?_ htick
  · intro now' hnow'
    rw [h.time_eq] at hnow'
    exact le_of_eq (Option.some.inj hnow')
  · intro now' hnow'
    exact @le_of_times [] rest op now now' htimes h.time_eq hnow'

/-- The first tick that comes after a tick of an operation is not before it. -/
theorem OnTime.le_head_of_mem_dispatchedBy {seq : Sequencer Rat} (h : seq.OnTime)
    {op : Operation Rat} {stretch more : List (Operation Rat)}
    (htimes : ((op :: (stretch ++ more)).filterMap Operation.time?).Pairwise (· ≤ ·))
    (hrestarts : (seq.apply op).sequencer.RestartsInTurn (stretch ++ more))
    (hstretch : ∀ op ∈ stretch, op.halts = false) {tick : Tick Rat}
    (htick : tick ∈ seq.dispatchedBy op) :
    ∀ next ∈ ((seq.apply op).sequencer.dispatched stretch).head?, tick.time ≤ next.time := by
  intro next hnext
  by_contra hlt
  -- if the next tick were before this one, the sequencer would be beyond it already
  have hbeyond : (seq.apply op).sequencer.Beyond next.time := by
    obtain ⟨hrun, hloop⟩ := h.beyond_of_mem_dispatchedBy htick
    exact ⟨hrun, fun loop hl => (hloop loop hl).trans (le_of_lt (not_le.mp hlt))⟩
  refine lt_irrefl _ (hbeyond.lt_head_dispatched (h.apply op) hstretch ?_ next hnext)
  intro first op' now rest heq hrestart next' hnext'
  refine lt_of_lt_of_le (not_le.mp hlt) ?_
  -- what a restart finds pending is not after its first tick, and what it finds announced is not
  -- after the restart itself
  have hops : op :: (stretch ++ more) = (op :: first) ++ op' :: (rest ++ more) := by
    rw [heq, List.append_assoc, List.cons_append, List.cons_append]
  have hfirst : ∀ o ∈ op :: first, o.halts = false := by
    intro o ho
    rcases List.mem_cons.mp ho with rfl | ho
    · obtain ⟨_, _, rfl, _⟩ := exists_window_of_mem_dispatchedBy htick
      rfl
    · refine hstretch o ?_
      rw [heq]
      exact List.mem_append_left _ ho
  have hmem : tick ∈ seq.pending ++ seq.dispatched (op :: first) :=
    List.mem_append_right _ (List.mem_append_left _ htick)
  rw [pending_append_dispatched_of_halts_eq_false hfirst, List.mem_append] at hmem
  rcases hmem with hannounced | hpending
  · have hnow : now ∈ (op' :: (rest ++ more)).filterMap Operation.time? :=
      List.mem_filterMap.mpr ⟨op', List.mem_cons_self, hrestart.time_eq⟩
    have hlater : ((op' :: rest).filterMap Operation.time?).Pairwise (· ≤ ·) := by
      rw [hops, ← List.cons_append, ← List.append_assoc, List.filterMap_append] at htimes
      have hboth := (List.pairwise_append.mp htimes).1
      rw [List.filterMap_append] at hboth
      exact (List.pairwise_append.mp hboth).2.1
    rw [hops] at htimes
    exact (le_of_mem_announced htimes hannounced hnow).trans
      (hrestart.le_of_mem_dispatched ((h.apply op).after first) hlater
        (List.mem_of_mem_head? hnext'))
  · refine hrestarts first op' now rest more ?_ ?_ hrestart tick hpending next' hnext'
    · rw [heq, List.append_assoc, List.cons_append]
    · intro o ho
      refine hstretch o ?_
      rw [heq]
      exact List.mem_append_right _ (.tail _ ho)

/-! ## The queue is in order -/

/-- What has been announced so far and what is pending are in order; nothing that was announced is
after an operation to come, and nothing of either is after the next tick of the stretch. -/
structure InTurn (heard : List (Tick Rat)) (seq : Sequencer Rat) (ops : List (Operation Rat)) :
    Prop where
  onTime : seq.OnTime
  times : (ops.filterMap Operation.time?).Pairwise (· ≤ ·)
  restarts : seq.RestartsInTurn ops
  sorted : (heard ++ seq.pending).Pairwise (·.time ≤ ·.time)
  heard_le : ∀ tick ∈ heard, ∀ now ∈ ops.filterMap Operation.time?, tick.time ≤ now
  le_next : ∀ tick ∈ heard ++ seq.pending, ∀ stretch more, ops = stretch ++ more →
    (∀ op ∈ stretch, op.halts = false) →
      ∀ next ∈ (seq.dispatched stretch).head?, tick.time ≤ next.time

/-- At the outset nothing is announced or pending. -/
theorem inTurn_new (config : SequencerConfig Rat) {ops : List (Operation Rat)}
    (htimes : (ops.filterMap Operation.time?).Pairwise (· ≤ ·))
    (hrestarts : (new config).RestartsInTurn ops) : InTurn [] (new config) ops where
  onTime := onTime_new config
  times := htimes
  restarts := hrestarts
  sorted := List.Pairwise.nil
  heard_le _ h := absurd h List.not_mem_nil
  le_next _ h := absurd h List.not_mem_nil

/-- What an operation announces is not after the operations to come. -/
theorem InTurn.heard_le_apply {heard : List (Tick Rat)} {seq : Sequencer Rat} {op : Operation Rat}
    {rest : List (Operation Rat)} (h : InTurn heard seq (op :: rest)) :
    ∀ tick ∈ heard ++ seq.announcedBy op, ∀ now ∈ rest.filterMap Operation.time?,
      tick.time ≤ now := by
  intro tick htick now hnow
  rcases List.mem_append.mp htick with htick | htick
  · refine h.heard_le tick htick now ?_
    exact ((List.sublist_cons_self op rest).filterMap _).subset hnow
  · obtain ⟨time, htime, hle⟩ := le_of_mem_announcedBy htick
    exact hle.trans (@le_of_times [] rest op time now h.times htime hnow)

/-- After an operation that halts a running transport there is no loop, and nothing is pending. -/
theorem Coherent.idle_of_halts {τ : Type} [TimeScale τ] {seq : Sequencer τ} (h : seq.Coherent)
    {op : Operation τ} (hop : op.halts = true) :
    (seq.apply op).sequencer.loop = none ∧ (seq.apply op).sequencer.pending = [] := by
  refine (h.transition (transition_apply seq op)).of_not_running ?_
  intro hrun
  cases op with
  | pause now =>
    revert hrun
    show (seq.pause now).sequencer.state ≠ .running
    rw [pause]
    split
    · exact TransportState.noConfusion
    · assumption
  | stop now => cases hrun
  | _ => cases hop

/-- A halt announces the front of the queue and gives up the rest. -/
theorem InTurn.apply_of_halts {heard : List (Tick Rat)} {seq : Sequencer Rat} {op : Operation Rat}
    {rest : List (Operation Rat)} (h : InTurn heard seq (op :: rest)) (hop : op.halts = true) :
    InTurn (heard ++ seq.announcedBy op) (seq.apply op).sequencer rest := by
  obtain ⟨hloop, hpending⟩ := h.onTime.toCoherent.idle_of_halts hop
  refine ⟨h.onTime.apply op, times_tail h.times, h.restarts.tail, ?_, h.heard_le_apply, ?_⟩
  · rw [hpending, List.append_nil]
    have hlaw := seq.pending_append_dispatchedBy op
    have hnone : seq.dispatchedBy op = [] := by
      cases op with
      | poll now => cases hop
      | _ => rfl
    rw [hnone, List.append_nil, List.append_assoc] at hlaw
    refine h.sorted.sublist (List.Sublist.append (List.Sublist.refl heard) ?_)
    rw [hlaw]
    exact List.sublist_append_left _ _
  · -- the next loop begins at one of the operations to come
    rw [hpending, List.append_nil]
    intro tick htick stretch more heq _ next hnext
    have hclear : (seq.apply op).sequencer.Clear tick.time := by
      intro loop hsome
      rw [hloop] at hsome
      cases hsome
    refine hclear.le_of_mem_dispatched (h.onTime.apply op) ?_ (List.mem_of_mem_head? hnext)
    intro now hnow
    refine h.heard_le_apply tick htick now ?_
    rw [heq, List.filterMap_append]
    exact List.mem_append_left _ hnow

/-- What an operation dispatches is not before what has been announced or is pending. -/
theorem InTurn.le_of_mem_dispatchedBy {heard : List (Tick Rat)} {seq : Sequencer Rat}
    {op : Operation Rat} {rest : List (Operation Rat)} (h : InTurn heard seq (op :: rest)) :
    ∀ tick ∈ heard ++ seq.pending, ∀ next ∈ seq.dispatchedBy op, tick.time ≤ next.time := by
  intro tick htick next hnext
  have hop : ∀ o ∈ [op], o.halts = false := by
    obtain ⟨_, _, rfl, _⟩ := exists_window_of_mem_dispatchedBy hnext
    intro o ho
    rw [List.mem_singleton.mp ho]
    rfl
  have hhead := h.le_next tick htick [op] rest rfl hop
  have hdispatched := h.onTime.pairwise_dispatchedBy op
  rw [dispatched, collect, collect, List.append_nil] at hhead
  cases hticks : seq.dispatchedBy op with
  | nil =>
    rw [hticks] at hnext
    exact absurd hnext List.not_mem_nil
  | cons first ticks =>
    rw [hticks] at hnext hhead hdispatched
    have hfirst : tick.time ≤ first.time := hhead first rfl
    rcases List.mem_cons.mp hnext with rfl | hnext
    · exact hfirst
    · exact hfirst.trans (le_of_lt ((List.pairwise_cons.mp hdispatched).1 next hnext))

/-- The queue is in order with what an operation puts to its back. -/
theorem InTurn.queue_sorted {heard : List (Tick Rat)} {seq : Sequencer Rat} {op : Operation Rat}
    {rest : List (Operation Rat)} (h : InTurn heard seq (op :: rest)) :
    (heard ++ seq.pending ++ seq.dispatchedBy op).Pairwise (·.time ≤ ·.time) := by
  rw [List.pairwise_append]
  exact ⟨h.sorted, (h.onTime.pairwise_dispatchedBy op).imp le_of_lt, h.le_of_mem_dispatchedBy⟩

/-- Other operations take ticks off the front of the queue and put later ones to its back. -/
theorem InTurn.apply_of_not_halts {heard : List (Tick Rat)} {seq : Sequencer Rat}
    {op : Operation Rat} {rest : List (Operation Rat)} (h : InTurn heard seq (op :: rest))
    (hop : op.halts = false) :
    InTurn (heard ++ seq.announcedBy op) (seq.apply op).sequencer rest := by
  have hlaw : heard ++ seq.announcedBy op ++ (seq.apply op).sequencer.pending =
      heard ++ seq.pending ++ seq.dispatchedBy op := by
    have hlaw := seq.pending_append_dispatchedBy op
    rw [voidedBy_of_halts_eq_false hop, List.append_nil] at hlaw
    rw [List.append_assoc, ← hlaw, List.append_assoc]
  refine ⟨h.onTime.apply op, times_tail h.times, h.restarts.tail, ?_, h.heard_le_apply, ?_⟩
  · rw [hlaw]
    exact h.queue_sorted
  · rw [hlaw]
    intro tick htick stretch more heq hstretch next hnext
    have hback : ∀ tick ∈ seq.dispatchedBy op, tick.time ≤ next.time := by
      intro tick htick
      have htimes := h.times
      have hrestarts := h.restarts.tail
      rw [heq] at htimes hrestarts
      exact h.onTime.le_head_of_mem_dispatchedBy htimes hrestarts hstretch htick next hnext
    rcases List.mem_append.mp htick with htick | htick
    · -- the ticks before are not after those of this operation, or it has none
      cases hticks : seq.dispatchedBy op with
      | nil =>
        refine h.le_next tick htick (op :: stretch) more (congrArg (op :: ·) heq) ?_ next ?_
        · intro o ho
          rcases List.mem_cons.mp ho with rfl | ho
          · exact hop
          · exact hstretch o ho
        · rw [dispatched, collect, hticks]
          exact hnext
      | cons first ticks =>
        have hfirst : first ∈ seq.dispatchedBy op := by
          rw [hticks]
          exact List.mem_cons_self
        exact (h.le_of_mem_dispatchedBy tick htick first hfirst).trans (hback first hfirst)
    · exact hback tick htick

theorem InTurn.after {heard : List (Tick Rat)} {seq : Sequencer Rat}
    {before rest : List (Operation Rat)} (h : InTurn heard seq (before ++ rest)) :
    InTurn (heard ++ seq.announced before) (seq.after before) rest := by
  induction before generalizing heard seq with
  | nil =>
    rw [announced, collect, List.append_nil]
    exact h
  | cons op before ih =>
    have hstep : InTurn (heard ++ seq.announcedBy op) (seq.apply op).sequencer
        (before ++ rest) := by
      cases hop : op.halts with
      | true => exact h.apply_of_halts hop
      | false => exact h.apply_of_not_halts hop
    rw [announced, collect, ← List.append_assoc, after_cons]
    exact ih hstep

/-- Among ticks in order, those that are left once the due ones are dropped are not due. -/
theorem lt_of_mem_dropWhile {ticks : List (Tick Rat)} (h : ticks.Pairwise (·.time ≤ ·.time))
    {now : Rat} {tick : Tick Rat} (htick : tick ∈ ticks.dropWhile (·.time ≤ now)) :
    now < tick.time := by
  induction ticks with
  | nil => exact absurd htick List.not_mem_nil
  | cons first rest ih =>
    obtain ⟨hfirst, hrest⟩ := List.pairwise_cons.mp h
    by_cases hdue : first.time ≤ now
    · rw [List.dropWhile_cons_of_pos (by simpa using hdue)] at htick
      exact ih hrest htick
    · rw [List.dropWhile_cons_of_neg (by simpa using hdue)] at htick
      rcases List.mem_cons.mp htick with rfl | htick
      · exact not_le.mp hdue
      · exact lt_of_lt_of_le (not_le.mp hdue) (hfirst tick htick)

/-- A queue in order is announced in time: what an operation leaves pending or gives up is later
than the operation. -/
theorem lt_of_queue_in_order {seq : Sequencer Rat} (hcoherent : seq.Coherent) {op : Operation Rat}
    {now : Rat} (hop : op = .poll now ∨ op = .pause now ∨ op = .stop now)
    (hqueue : (seq.pending ++ seq.dispatchedBy op).Pairwise (·.time ≤ ·.time)) :
    (∀ tick ∈ (seq.apply op).sequencer.pending, now < tick.time) ∧
      ∀ tick ∈ seq.voidedBy op, now < tick.time := by
  rcases hop with rfl | rfl | rfl
  · refine ⟨?_, fun tick htick => absurd htick List.not_mem_nil⟩
    intro tick htick
    rw [pending_poll] at htick
    exact lt_of_mem_dropWhile hqueue htick
  · have hpending : seq.pending.Pairwise (·.time ≤ ·.time) := (List.pairwise_append.mp hqueue).1
    have hhalts : (Operation.pause now).halts = true := rfl
    refine ⟨?_, ?_⟩
    · rw [(hcoherent.idle_of_halts hhalts).2]
      exact fun tick htick => absurd htick List.not_mem_nil
    · intro tick htick
      rw [voidedBy] at htick
      split at htick
      · exact lt_of_mem_dropWhile hpending htick
      · exact absurd htick List.not_mem_nil
  · have hpending : seq.pending.Pairwise (·.time ≤ ·.time) := (List.pairwise_append.mp hqueue).1
    refine ⟨fun tick htick => absurd htick List.not_mem_nil, ?_⟩
    intro tick htick
    exact lt_of_mem_dropWhile hpending htick

/-- A pause goes back to the first tick of the running loop that it gives up. -/
theorem step_pause {seq : Sequencer Rat} {loop : Loop Rat} (hrun : seq.state = .running)
    (hloop : seq.loop = some loop) (now : Rat) :
    (seq.apply (.pause now)).sequencer.step =
      ((seq.voidedBy (.pause now)).find? (·.loopId = loop.id)).elim loop.nextStep (·.step) := by
  have hpaused : (seq.apply (.pause now)).sequencer.step = seq.unheardStep now := by
    show (seq.pause now).sequencer.step = _
    rw [pause, hrun]
    rfl
  rw [hpaused, unheardStep, hloop, voidedBy, if_pos hrun]
  dsimp only
  split
  · next hfind => rw [hfind, Option.elim_some]
  · next hfind => rw [hfind, Option.elim_none]

/-- What is settled is announced or voided. -/
theorem fate_of_mem_settled {τ : Type} [TimeScale τ] {seq : Sequencer τ} {ops : List (Operation τ)}
    {entry : Tick τ × Fate} (h : entry ∈ seq.settled ops) :
    entry.2 = .announced ∨ entry.2 = .voided := by
  obtain ⟨before, op, _, _, hmem⟩ := exists_of_mem_collect h
  rw [settledBy, List.mem_append, List.mem_map, List.mem_map] at hmem
  rcases hmem with ⟨_, _, rfl⟩ | ⟨_, _, rfl⟩
  · exact Or.inl rfl
  · exact Or.inr rfl

/-- A queue in order through a run restarts in turn. -/
theorem restartsInTurn_of_pairwise {seq : Sequencer Rat} {ops : List (Operation Rat)}
    (h : ∀ before, before <+: ops →
      (seq.announced before ++ (seq.after before).pending).Pairwise (·.time ≤ ·.time)) :
    seq.RestartsInTurn ops := by
  intro first op now stretch more heq hstretch hrestart tick htick next hnext
  have hop : op.halts = false := by
    obtain ⟨_, _, _, hedit, _⟩ := hrestart
    cases op with
    | pause => cases hedit
    | stop => cases hedit
    | _ => rfl
  -- nothing halts the stretch that begins with the restart
  have hnone : ∀ o ∈ op :: stretch, o.halts = false := by
    intro o ho
    rcases List.mem_cons.mp ho with rfl | ho
    · exact hop
    · exact hstretch o ho
  have hprefix : first ++ op :: stretch <+: ops := by
    rw [heq, ← List.cons_append, ← List.append_assoc]
    exact List.prefix_append _ _
  have hsorted := h _ hprefix
  rw [announced, collect_append, after_append, List.append_assoc, ← announced, ← announced,
    ← pending_append_dispatched_of_halts_eq_false hnone, List.pairwise_append,
    List.pairwise_append] at hsorted
  refine hsorted.2.1.2.2 tick htick next ?_
  rw [dispatched, collect]
  exact List.mem_append_right _ (List.mem_of_mem_head? hnext)

/-- A restart that comes after all pending ticks is in turn. -/
theorem restartsInTurn_of_le (config : SequencerConfig Rat) {ops : List (Operation Rat)}
    (htimes : (ops.filterMap Operation.time?).Pairwise (· ≤ ·))
    (h : ∀ first op now rest, ops = first ++ op :: rest →
      ((new config).after first).RestartsAt op now →
        ∀ tick ∈ ((new config).after first).pending, tick.time ≤ now) :
    (new config).RestartsInTurn ops := by
  intro first op now stretch more heq _ hrestart tick htick next hnext
  refine (h first op now _ heq hrestart tick htick).trans ?_
  refine hrestart.le_of_mem_dispatched (onTime_after config first) ?_ (List.mem_of_mem_head? hnext)
  rw [heq, ← List.cons_append, List.filterMap_append, List.filterMap_append,
    List.pairwise_append] at htimes
  exact (List.pairwise_append.mp htimes.2.1).1

/-- When the operations' times do not go back, what is announced and then what is pending are in the
order of time throughout the run if and only if each restart after an empty set is in turn with what
is pending; it is when it comes after that.  Then each poll, pause and stop has announced all ticks
that are due, but for those that were given up before; what it leaves pending or gives up is later,
and a pause goes back to the first such tick of its loop. -/
theorem announced_in_time_iff (config : SequencerConfig Rat) {ops : List (Operation Rat)}
    (htimes : (ops.filterMap Operation.time?).Pairwise (· ≤ ·)) :
    let seq : Sequencer Rat := new config
    (seq.RestartsInTurn ops ↔ ∀ before, before <+: ops →
        (seq.announced before ++ (seq.after before).pending).Pairwise (·.time ≤ ·.time)) ∧
      ((∀ first op now rest, ops = first ++ op :: rest → (seq.after first).RestartsAt op now →
          ∀ tick ∈ (seq.after first).pending, tick.time ≤ now) → seq.RestartsInTurn ops) ∧
      (seq.RestartsInTurn ops →
        (seq.announced ops).Pairwise (·.time ≤ ·.time) ∧
        ∀ before op now rest, ops = before ++ op :: rest →
          (op = .poll now ∨ op = .pause now ∨ op = .stop now) →
            (∀ entry ∈ seq.ledger (before ++ [op]), entry.1.time ≤ now →
              entry.2 = .announced ∨ entry.2 = .voided ∧ entry ∈ seq.settled before) ∧
            (∀ tick ∈ (seq.after (before ++ [op])).pending, now < tick.time) ∧
            (∀ tick ∈ (seq.after before).voidedBy op, now < tick.time) ∧
            ∀ loop, op = .pause now → (seq.after before).loop = some loop →
              (seq.after (before ++ [op])).step =
                (((seq.after before).voidedBy op).find? (·.loopId = loop.id)).elim loop.nextStep
                  (·.step)) := by
  intro seq
  have hsorted : seq.RestartsInTurn ops → ∀ before, before <+: ops →
      (seq.announced before ++ (seq.after before).pending).Pairwise (·.time ≤ ·.time) := by
    rintro hrestarts before ⟨rest, rfl⟩
    exact (inTurn_new config htimes hrestarts).after.sorted
  refine ⟨⟨hsorted, restartsInTurn_of_pairwise⟩, restartsInTurn_of_le config htimes, ?_⟩
  intro hrestarts
  refine ⟨(List.pairwise_append.mp (hsorted hrestarts ops List.prefix_rfl)).1, ?_⟩
  intro before op now rest heq hop
  have hprefix : before ++ [op] <+: ops := ⟨rest, by rw [heq, List.append_assoc]; rfl⟩
  have hafter : seq.after (before ++ [op]) = ((seq.after before).apply op).sequencer := by
    rw [after_append]
    rfl
  have hcoherent : (seq.after before).Coherent := (onTime_after config before).toCoherent
  have hqueue : ((seq.after before).pending ++ (seq.after before).dispatchedBy op).Pairwise
      (·.time ≤ ·.time) := by
    have hinturn := inTurn_new config htimes hrestarts
    rw [heq] at hinturn
    have hqueue := hinturn.after.queue_sorted
    rw [List.append_assoc, List.pairwise_append] at hqueue
    exact hqueue.2.1
  obtain ⟨hpending, hvoided⟩ := lt_of_queue_in_order hcoherent hop hqueue
  refine ⟨?_, ?_, hvoided, ?_⟩
  · -- an entry that is due is neither pending nor given up just now
    intro entry hentry hdue
    rw [ledger, settled, collect_append, List.mem_append, List.mem_append] at hentry
    rcases hentry with (hbefore | hop) | hleft
    · rcases fate_of_mem_settled hbefore with hfate | hfate
      · exact Or.inl hfate
      · exact Or.inr ⟨hfate, hbefore⟩
    · rw [collect, collect, List.append_nil, settledBy, List.mem_append, List.mem_map,
        List.mem_map] at hop
      rcases hop with ⟨_, _, rfl⟩ | ⟨tick, htick, rfl⟩
      · exact Or.inl rfl
      · exact absurd hdue (not_le.mpr (hvoided tick htick))
    · rw [hafter] at hleft
      obtain ⟨tick, htick, rfl⟩ := List.mem_map.mp hleft
      exact absurd hdue (not_le.mpr (hpending tick htick))
  · rw [hafter]
    exact hpending
  · rintro loop rfl hloop
    rw [hafter]
    exact step_pause (hcoherent.loop_plays hloop).1 hloop now

/-- A set that is handed in after the second kick restarts in turn. -/
theorem announced_in_time_iff_emptied :
    ((kicksStarted ++ emptiedAndRestarted (5 / 16)).filterMap Operation.time?).Pairwise (· ≤ ·) ∧
      (new .standard).RestartsInTurn (kicksStarted ++ emptiedAndRestarted (5 / 16)) ∧
      ((new .standard).announced (kicksStarted ++ emptiedAndRestarted (5 / 16))).map (·.time) =
        [0, 1 / 4, 5 / 16] := by
  have htimes : ((kicksStarted ++ emptiedAndRestarted (5 / 16)).filterMap
      Operation.time?).Pairwise (· ≤ ·) := by
    decide +kernel
  have hsorted : ∀ before ∈ (kicksStarted ++ emptiedAndRestarted (5 / 16)).inits,
      ((new .standard).announced before ++ ((new .standard).after before).pending).Pairwise
        (·.time ≤ ·.time) := by
    decide +kernel
  refine ⟨htimes, (announced_in_time_iff .standard htimes).1.mpr ?_, ?_⟩
  · exact fun before hprefix => hsorted before ((List.mem_inits _ _).mpr hprefix)
  · decide +kernel

/-- A snare that is handed in while the second kick is pending goes behind that kick, though it
comes first.  The poll at its time plays it and does not announce it, a pause gives it up, and it is
played again on resume. -/
theorem early_restart_blocks_queue :
    let snareClap : PatternSet := ⟨some (.ofWords ["snare", "clap"]), none, none⟩
    let ops : List (Operation Rat) := kicksStarted ++ [.poll 0, .poll (3 / 16),
      .replacePatterns .empty (3 / 16), .replacePatterns snareClap (7 / 32), .poll (7 / 32)]
    let seq := (new .standard).after ops
    ((ops ++ [Operation.pause (15 / 64)]).filterMap Operation.time?).Pairwise (· ≤ ·) ∧
      (∃ tick ∈ seq.pending, tick.time ≤ 7 / 32 ∧ tick.patterns = snareClap ∧ tick.step = 0 ∧
        tick ∉ (new .standard).announced (ops ++ [.pause (15 / 64)]) ∧
        tick ∈ seq.voidedBy (.pause (15 / 64)) ∧
        (seq.apply (.pause (15 / 64))).sequencer.step = tick.step) ∧
      ((new .standard).dispatched (ops ++ [.pause (15 / 64), .resume (1 / 4), .poll (1 / 4)])).map
        (fun tick => (tick.time, tick.step)) = [(0, 0), (1 / 4, 1), (7 / 32, 0), (1 / 4, 0)] := by
  intro snareClap ops seq
  refine ⟨by decide +kernel, ⟨⟨1, 7 / 32, 0, snareClap, 1 / 4⟩, ?_⟩, by decide +kernel⟩
  decide +kernel

end Sequencer

end Groovebox
