import Groovebox.Proofs.Lists
import Groovebox.Proofs.Runs

/-!
# What becomes of a tick

A tick that is dispatched is pending until its time is reached.  Then observers are told of it,
unless the transport has halted before and given it up.  The pending ticks are a queue: operations
take ticks off its front and put them to its back (`pending_append_dispatchedBy`), so that the ticks
of a run, in the order in which they are dispatched, are those settled so far and then those still
pending.  The `ledger` of a run lists them with what became of each.
-/

namespace Groovebox

/-- What becomes of a tick that is dispatched. -/
inductive Fate where
  /-- Observers are told of it. -/
  | announced
  /-- A pause or a stop gives it up. -/
  | voided
  /-- It waits for its time. -/
  | pending
deriving DecidableEq, Repr

/-- The ticks among some entries that have a fate. -/
def ticksWith {τ : Type} (fate : Fate) (entries : List (Tick τ × Fate)) : List (Tick τ) :=
  (entries.filter (·.2 = fate)).map (·.1)

theorem ticksWith_append {τ : Type} (fate : Fate) (a b : List (Tick τ × Fate)) :
    ticksWith fate (a ++ b) = ticksWith fate a ++ ticksWith fate b :=
  withFate_append fate a b

theorem ticksWith_map {τ : Type} (fate other : Fate) (ticks : List (Tick τ)) :
    ticksWith fate (ticks.map (·, other)) = if other = fate then ticks else [] :=
  withFate_map fate other ticks

/-! ## What an observer hears -/

/-- The event that observers are told, if the effect is one. -/
def Effect.display? {τ : Type} : Effect τ → Option DisplayEvent
  | .sound _ => none
  | .display event => some event

/-- The step and the snapshot of a step event. -/
def DisplayEvent.stepAdvance? : DisplayEvent → Option (Nat × PatternSet)
  | .stepAdvance step patterns => some (step, patterns)
  | _ => none

theorem Effect.bind_display? {τ : Type} (effect : Effect τ) :
    effect.display?.bind DisplayEvent.stepAdvance? = effect.stepAdvance? := by
  cases effect with
  | sound call => rfl
  | display event => cases event <;> rfl

namespace Sequencer

variable {τ : Type} [TimeScale τ]

/-- The events that an observer is told in a run.  Observers are numbered as they subscribe. -/
def told (observer : Nat) (seq : Sequencer τ) (ops : List (Operation τ)) : List DisplayEvent :=
  seq.collect (fun seq op =>
    if observer < seq.observers then (seq.apply op).effects.filterMap Effect.display? else []) ops

/-- No observer is lost. -/
theorem observers_le_apply (seq : Sequencer τ) (op : Operation τ) :
    seq.observers ≤ (seq.apply op).sequencer.observers := by
  have htrans := transition_apply seq op
  generalize (seq.apply op).sequencer = after at htrans ⊢
  cases htrans with
  | subscribe => exact Nat.le_succ _
  | resumeRefused | resume => cases h : seq.staged <;> simp [rewindToStaged, installLoop, h]
  | _ => exact Nat.le_refl _

/-- An observer that has subscribed is told every event. -/
theorem told_eq_effects {observer : Nat} {seq : Sequencer τ} (h : observer < seq.observers)
    (ops : List (Operation τ)) :
    seq.told observer ops = (seq.effects ops).filterMap Effect.display? := by
  rw [effects_eq_collect, told]
  induction ops generalizing seq with
  | nil => rfl
  | cons op rest ih =>
    rw [collect, collect, if_pos h, List.filterMap_append,
      ih (Nat.lt_of_lt_of_le h (seq.observers_le_apply op))]

/-- The step events that an observer is told are the ticks announced. -/
theorem stepAdvances_told {observer : Nat} {seq : Sequencer τ} (h : observer < seq.observers)
    (ops : List (Operation τ)) :
    (seq.told observer ops).filterMap DisplayEvent.stepAdvance? =
      (seq.announced ops).map fun tick => (tick.step, tick.patterns) := by
  rw [told_eq_effects h, List.filterMap_filterMap, ← stepAdvances_eq_announced]
  exact List.filterMap_congr fun effect _ => effect.bind_display?

/-! ## The queue of pending ticks -/

/-- The operation is a pause or a stop, and it takes effect. -/
def Halts (seq : Sequencer τ) : Operation τ → Prop
  | .pause _ => seq.state = .running
  | .stop _ => True
  | _ => False

/-- The pending ticks that an operation gives up. -/
def voidedBy (seq : Sequencer τ) : Operation τ → List (Tick τ)
  | .pause now => if seq.state = .running then seq.undue now else []
  | .stop now => seq.undue now
  | _ => []

theorem voidedBy_of_not_halts {seq : Sequencer τ} {op : Operation τ} (h : ¬ seq.Halts op) :
    seq.voidedBy op = [] := by
  cases op with
  | pause now => exact if_neg h
  | stop now => exact absurd trivial h
  | _ => rfl

/-- A halt leaves nothing pending. -/
theorem pending_of_halts {seq : Sequencer τ} {op : Operation τ} (h : seq.Halts op) :
    (seq.apply op).sequencer.pending = [] := by
  cases op with
  | pause now =>
    have hrun : seq.state = .running := h
    show (seq.pause now).sequencer.pending = []
    rw [pause, hrun]
    rfl
  | stop now => rfl
  | _ => exact absurd h id

/-- A poll appends what it dispatches to the pending ticks and announces those that are due. -/
theorem announcedBy_poll (seq : Sequencer τ) (now : τ) :
    seq.announcedBy (.poll now) =
      (seq.pending ++ seq.dispatchedBy (.poll now)).takeWhile (·.time ≤ now) := by
  rw [announcedBy, dispatchedBy]
  by_cases hidle : seq.state = .running → seq.loop = none
  · rw [fillWindow_of_idle hidle, List.append_nil, due]
  · obtain ⟨hrun, hne⟩ := Classical.not_imp.mp hidle
    obtain ⟨loop, hloop⟩ := Option.ne_none_iff_exists'.mp hne
    rw [fillWindow_of_loop hrun hloop]
    rfl

/-- The ticks that a poll leaves pending are the others. -/
theorem pending_poll (seq : Sequencer τ) (now : τ) :
    (seq.apply (.poll now)).sequencer.pending =
      (seq.pending ++ seq.dispatchedBy (.poll now)).dropWhile (·.time ≤ now) := by
  rw [dispatchedBy]
  show (seq.poll now).sequencer.pending = _
  rw [poll]
  by_cases hidle : seq.state = .running → seq.loop = none
  · rw [fillWindow_of_idle hidle, List.append_nil]
    rfl
  · obtain ⟨hrun, hne⟩ := Classical.not_imp.mp hidle
    obtain ⟨loop, hloop⟩ := Option.ne_none_iff_exists'.mp hne
    rw [fillWindow_of_loop hrun hloop]
    rfl

/-- The pending ticks are a queue: what an operation dispatches goes to its end, and what the
operation announces and then what it gives up comes off its front. -/
theorem pending_append_dispatchedBy (seq : Sequencer τ) (op : Operation τ) :
    seq.pending ++ seq.dispatchedBy op =
      seq.announcedBy op ++ seq.voidedBy op ++ (seq.apply op).sequencer.pending := by
  -- most operations leave the queue alone
  have hquiet : seq.dispatchedBy op = [] → seq.announcedBy op = [] → seq.voidedBy op = [] →
      (seq.apply op).sequencer.pending = seq.pending →
        seq.pending ++ seq.dispatchedBy op =
          seq.announcedBy op ++ seq.voidedBy op ++ (seq.apply op).sequencer.pending := by
    intro hdispatched hannounced hvoided hpending
    rw [hdispatched, hannounced, hvoided, hpending, List.append_nil, List.nil_append,
      List.nil_append]
  cases op with
  | subscribe => exact hquiet rfl rfl rfl rfl
  | replacePatterns patterns now =>
    refine hquiet rfl rfl rfl ?_
    simp only [apply, replacePatterns]
    split
    · split <;> rfl
    · rfl
  | submitText text now =>
    refine hquiet rfl rfl rfl ?_
    simp only [apply, submitText, replacePatterns]
    split
    · split <;> rfl
    · rfl
  | start clock =>
    refine hquiet rfl rfl rfl ?_
    have htrans := transition_start seq clock
    show (seq.start clock).sequencer.pending = seq.pending
    generalize (seq.start clock).sequencer = after at htrans ⊢
    cases htrans with
    | stage hedit | silence hedit | swap hedit => cases hedit
    | _ => rfl
  | pause now =>
    by_cases h : seq.state = .running
    · show seq.pending ++ [] = (if seq.state = .running then seq.due now else []) ++
        (if seq.state = .running then seq.undue now else []) ++ _
      rw [pending_of_halts (show seq.Halts (.pause now) from h), if_pos h, if_pos h,
        due_append_undue]
    · refine hquiet rfl (if_neg h) (if_neg h) ?_
      show (seq.pause now).sequencer.pending = seq.pending
      rw [pause]
      split
      · contradiction
      · rfl
  | resume now =>
    refine hquiet rfl rfl rfl ?_
    show (seq.resume now).sequencer.pending = seq.pending
    by_cases hstate : seq.state = .paused
    · rw [resume_of_paused hstate]
      split
      · exact seq.pending_rewindToStaged
      · exact seq.pending_rewindToStaged
    · rw [resume_of_not_paused hstate]
  | stop now =>
    rw [announcedBy, voidedBy, due_append_undue]
    rfl
  | setTempo bpm => exact hquiet rfl rfl rfl rfl
  | poll now =>
    show _ = _ ++ [] ++ _
    rw [announcedBy_poll, pending_poll, List.append_nil, List.takeWhile_append_dropWhile]

/-! ## The ledger -/

/-- The ticks that a run gives up, in order. -/
def voided (seq : Sequencer τ) (ops : List (Operation τ)) : List (Tick τ) :=
  seq.collect voidedBy ops

/-- The ticks that an operation settles, and how. -/
def settledBy (seq : Sequencer τ) (op : Operation τ) : List (Tick τ × Fate) :=
  (seq.announcedBy op).map (·, .announced) ++ (seq.voidedBy op).map (·, .voided)

/-- The ticks that a run settles, and how. -/
def settled (seq : Sequencer τ) (ops : List (Operation τ)) : List (Tick τ × Fate) :=
  seq.collect settledBy ops

/-- The ticks of a run with what has become of them by its end. -/
def ledger (seq : Sequencer τ) (ops : List (Operation τ)) : List (Tick τ × Fate) :=
  seq.settled ops ++ (seq.after ops).pending.map (·, .pending)

/-- The ledger of a run lists the ticks that were pending and then those that the run dispatches. -/
theorem map_fst_ledger (seq : Sequencer τ) (ops : List (Operation τ)) :
    (seq.ledger ops).map (·.1) = seq.pending ++ seq.dispatched ops := by
  induction ops generalizing seq with
  | nil => simp [ledger, settled, dispatched, collect, after, Function.comp_def]
  | cons op rest ih =>
    have hsettled : (seq.settledBy op).map (·.1) = seq.announcedBy op ++ seq.voidedBy op := by
      simp [settledBy, Function.comp_def]
    have hrest := ih (seq.apply op).sequencer
    rw [ledger, settled] at hrest
    rw [ledger, settled, collect, List.append_assoc, after_cons, List.map_append, hrest, hsettled,
      ← List.append_assoc, ← pending_append_dispatchedBy, List.append_assoc, dispatched, dispatched,
      collect]

/-- The ticks that a run settles with a fate, operation by operation. -/
theorem ticksWith_settled {fate : Fate} {record : Sequencer τ → Operation τ → List (Tick τ)}
    (h : ∀ seq op, ticksWith fate (settledBy seq op) = record seq op) (seq : Sequencer τ)
    (ops : List (Operation τ)) :
    ticksWith fate (seq.settled ops) = seq.collect record ops := by
  induction ops generalizing seq with
  | nil => rfl
  | cons op rest ih => rw [settled, collect, ticksWith_append, h, ← settled, ih, collect]

theorem ticksWith_announced_ledger (seq : Sequencer τ) (ops : List (Operation τ)) :
    ticksWith .announced (seq.ledger ops) = seq.announced ops := by
  have hby : ∀ (seq : Sequencer τ) op,
      ticksWith .announced (settledBy seq op) = seq.announcedBy op := by
    intro seq op
    rw [settledBy, ticksWith_append, ticksWith_map, ticksWith_map]
    exact List.append_nil _
  rw [ledger, ticksWith_append, ticksWith_settled hby, ticksWith_map]
  exact List.append_nil _

theorem ticksWith_voided_ledger (seq : Sequencer τ) (ops : List (Operation τ)) :
    ticksWith .voided (seq.ledger ops) = seq.voided ops := by
  have hby : ∀ (seq : Sequencer τ) op,
      ticksWith .voided (settledBy seq op) = seq.voidedBy op := by
    intro seq op
    rw [settledBy, ticksWith_append, ticksWith_map, ticksWith_map]
    rfl
  rw [ledger, ticksWith_append, ticksWith_settled hby, ticksWith_map]
  exact List.append_nil _

theorem ticksWith_pending_ledger (seq : Sequencer τ) (ops : List (Operation τ)) :
    ticksWith .pending (seq.ledger ops) = (seq.after ops).pending := by
  have hsettled : ticksWith .pending (seq.settled ops) = [] := by
    induction ops generalizing seq with
    | nil => rfl
    | cons op rest ih =>
      rw [settled, collect, ← settled, ticksWith_append, ih, settledBy, ticksWith_append,
        ticksWith_map, ticksWith_map]
      rfl
  rw [ledger, ticksWith_append, hsettled, ticksWith_map]
  rfl

/-- What has become of a tick, once it is settled, stays. -/
theorem settled_prefix_ledger (seq : Sequencer τ) (ops more : List (Operation τ)) :
    seq.settled ops <+: seq.ledger (ops ++ more) := by
  rw [ledger, settled, settled, collect_append, List.append_assoc]
  exact List.prefix_append _ _

/-- While nothing halts the transport, the ticks dispatched follow the ones that were pending, and
those announced come off the front. -/
theorem pending_append_dispatched {seq : Sequencer τ} {ops : List (Operation τ)}
    (h : ∀ first op rest, ops = first ++ op :: rest → ¬ (seq.after first).Halts op) :
    seq.pending ++ seq.dispatched ops = seq.announced ops ++ (seq.after ops).pending := by
  induction ops generalizing seq with
  | nil => exact List.append_nil _
  | cons op rest ih =>
    have hop : seq.voidedBy op = [] := voidedBy_of_not_halts (h [] op rest rfl)
    have hrest := @ih (seq.apply op).sequencer fun first op' rest' heq =>
      h (op :: first) op' rest' (congrArg (op :: ·) heq)
    have hlaw := seq.pending_append_dispatchedBy op
    rw [hop, List.append_nil] at hlaw
    rw [dispatched, collect, ← dispatched, ← List.append_assoc, hlaw, List.append_assoc, hrest,
      announced, announced, collect, List.append_assoc, after_cons]

/-- Only a pause and a stop give ticks up. -/
theorem voidedBy_of_halts_eq_false {seq : Sequencer τ} {op : Operation τ} (h : op.halts = false) :
    seq.voidedBy op = [] := by
  cases op with
  | pause now | stop now => cases h
  | _ => rfl

theorem pending_append_dispatched_of_halts_eq_false {seq : Sequencer τ} {ops : List (Operation τ)}
    (h : ∀ op ∈ ops, op.halts = false) :
    seq.pending ++ seq.dispatched ops = seq.announced ops ++ (seq.after ops).pending := by
  refine pending_append_dispatched ?_
  rintro first op rest rfl hhalts
  have hop : op.halts = false := h op (List.mem_append_right _ List.mem_cons_self)
  cases op with
  | pause now | stop now => cases hop
  | _ => exact hhalts

/-! ## Sound and display agree -/

/-- What is announced is due. -/
theorem le_of_mem_announcedBy {seq : Sequencer τ} {op : Operation τ} {tick : Tick τ}
    (h : tick ∈ seq.announcedBy op) : ∃ now, op.time? = some now ∧ tick.time ≤ now := by
  have hdue : ∀ {ticks : List (Tick τ)} {now : τ},
      tick ∈ ticks.takeWhile (·.time ≤ now) → tick.time ≤ now := by
    intro ticks now hmem
    have hall : (ticks.takeWhile (·.time ≤ now)).all (·.time ≤ now) = true := List.all_takeWhile
    simpa using List.all_eq_true.mp hall tick hmem
  cases op with
  | poll now => exact ⟨now, rfl, hdue h⟩
  | pause now =>
    rw [announcedBy] at h
    split at h
    · exact ⟨now, rfl, hdue h⟩
    · exact absurd h List.not_mem_nil
  | stop now => exact ⟨now, rfl, hdue h⟩
  | _ => exact absurd h List.not_mem_nil

/-- Observers that subscribe at the outset. -/
theorem after_subscribe (config : SequencerConfig τ) (observers : Nat) :
    (new config).after (List.replicate observers .subscribe) =
      { new config with observers := observers } := by
  induction observers with
  | zero => rfl
  | succ n ih =>
    rw [List.replicate_succ', after_concat, ih]
    rfl

/-- Each tick that a run dispatches to the backend is announced, or voided, or pending, in the order
of dispatch and each just once; and what is announced or voided stays so.  An observer that was
there from the outset is told the ticks announced, each at an operation whose time has reached the
tick's.  Since the last halt the ticks dispatched are the ones announced and then the pending
ones. -/
theorem every_tick_has_one_fate (config : SequencerConfig τ) (observers : Nat)
    (ops : List (Operation τ)) :
    let seq := (new config).after (List.replicate observers .subscribe)
    (seq.ledger ops).map (·.1) = seq.dispatched ops ∧
      (seq.effects ops).filterMap Effect.sound? =
        (seq.dispatched ops).flatMap (·.calls config.wrapPolicy) ∧
      (∀ observer < observers, (seq.told observer ops).filterMap DisplayEvent.stepAdvance? =
        (ticksWith .announced (seq.ledger ops)).map fun tick => (tick.step, tick.patterns)) ∧
      (∀ first op rest, ops = first ++ op :: rest → ∀ tick ∈ (seq.after first).announcedBy op,
        ∃ now, op.time? = some now ∧ tick.time ≤ now) ∧
      ticksWith .announced (seq.ledger ops) = seq.announced ops ∧
      ticksWith .voided (seq.ledger ops) = seq.voided ops ∧
      ticksWith .pending (seq.ledger ops) = (seq.after ops).pending ∧
      (∀ more, seq.settled ops <+: seq.ledger (ops ++ more)) ∧
      (∀ before since, ops = before ++ since →
        (before = [] ∨ ∃ first halt, before = first ++ [halt] ∧ (seq.after first).Halts halt) →
          (∀ first op rest, since = first ++ op :: rest →
            ¬ ((seq.after before).after first).Halts op) →
            (seq.after before).dispatched since =
              (seq.after before).announced since ++ (seq.after ops).pending) := by
  intro seq
  have hseq : seq = { new config with observers := observers } := after_subscribe config observers
  have hpending : seq.pending = [] := by
    rw [hseq]
    rfl
  refine ⟨?_, ?_, ?_, ?_, seq.ticksWith_announced_ledger ops, seq.ticksWith_voided_ledger ops,
    seq.ticksWith_pending_ledger ops, seq.settled_prefix_ledger ops, ?_⟩
  · rw [map_fst_ledger, hpending, List.nil_append]
  · rw [sounds_eq_dispatched, hseq]
    rfl
  · intro observer hlt
    have hsubscribed : observer < seq.observers := by
      rw [hseq]
      exact hlt
    rw [stepAdvances_told hsubscribed, ticksWith_announced_ledger]
  · intro first op rest _ tick htick
    exact le_of_mem_announcedBy htick
  · intro before since heq hbefore hsince
    -- nothing is pending after a halt, or at the outset
    have hnone : (seq.after before).pending = [] := by
      rcases hbefore with rfl | ⟨first, halt, rfl, hhalt⟩
      · exact hpending
      · rw [after_append]
        exact pending_of_halts hhalt
    rw [heq, after_append seq before since]
    have hlaw := pending_append_dispatched hsince
    rwa [hnone, List.nil_append] at hlaw

end Sequencer

end Groovebox
