import Groovebox.Clock.AudioClock
import Groovebox.Clock.StepClock
import Groovebox.Dispatch
import Groovebox.PatternText.Compile
import Groovebox.Sequencer.Config
import Groovebox.Sequencer.Loop
import Groovebox.Transport

/-! # The sequencer

The sequencer owns the transport, the tempo and the pattern set.  Its host polls it with the audio
time; each poll dispatches the ticks that fall inside the lookahead window and tells the observers
of the ticks whose time is reached.  An operation answers with the new sequencer and, in order,
what it did to the backend and to the observers.
-/

namespace Groovebox

/-- Something that an operation does to the outside. -/
inductive Effect (τ : Type) where
  /-- The backend is called. -/
  | sound (call : BackendCall τ)
  /-- Every observer is told an event. -/
  | display (event : DisplayEvent)
deriving Repr

/-- The transport, the tempo and the pattern set of a step machine. -/
structure Sequencer (τ : Type) where
  config : SequencerConfig τ
  state : TransportState
  /-- The step to sound next. -/
  step : Nat
  tempo : Tempo τ
  /-- The set that is playing, or played last. -/
  patterns : PatternSet
  /-- An edit that waits for the next start or resume. -/
  staged : Option PatternSet
  loop : Option (Loop τ)
  nextLoopId : Nat
  /-- The ticks dispatched whose time is not reached yet. -/
  pending : List (Tick τ)
  /-- How many observers there are. -/
  observers : Nat

/-- What an operation answers, the sequencer after it, and what it did to the outside. -/
structure Outcome (τ α : Type) where
  result : α
  sequencer : Sequencer τ
  effects : List (Effect τ)

namespace Sequencer

variable {τ : Type} [TimeScale τ]

/-- A stopped sequencer without patterns. -/
def new (config : SequencerConfig τ) : Sequencer τ where
  config := config
  state := .stopped
  step := 0
  tempo := .standard
  patterns := .empty
  staged := none
  loop := none
  nextLoopId := 0
  pending := []
  observers := 0

/-- One more observer. -/
def subscribe (seq : Sequencer τ) : Sequencer τ :=
  { seq with observers := seq.observers + 1 }

/-- Seconds from a step to the next. -/
def stepDuration (seq : Sequencer τ) : τ :=
  seq.tempo.stepDuration seq.config.stepsPerBeat

/-- Observers are told a status. -/
def announce (status : TransportStatus) : Effect τ :=
  .display (.status status)

/-- Begins a loop of the active set, its first tick at a given time. -/
def installLoop (seq : Sequencer τ) (time : τ) : Sequencer τ :=
  { seq with
    nextLoopId := seq.nextLoopId + 1
    loop := some {
      id := seq.nextLoopId
      clock := ⟨0, time, seq.stepDuration⟩
      nextTick := 0
      nextStep := seq.step
      patterns := seq.patterns
      lastTick := none } }

/-! ## Patterns and tempo -/

/-- Hands in a pattern set.  While the transport runs, the set takes over at the slot of the
running loop's next tick, or at once when there is no loop; otherwise it is staged. -/
def replacePatterns (seq : Sequencer τ) (patterns : PatternSet) (now : τ) : Outcome τ Unit :=
  let effects := [Effect.display (.patternSetChanged patterns)]
  match seq.state with
  | .running =>
    let slot := match seq.loop with
      | some loop => TimeScale.latest loop.nextTime now
      | none => now
    let swapped := { seq with patterns := patterns, staged := none, loop := none, step := 0 }
    ⟨(), if patterns.cycleLength = 0 then swapped else swapped.installLoop slot, effects⟩
  | _ => ⟨(), { seq with staged := some patterns }, effects⟩

/-- Compiles a text and hands in the result, which is the answer. -/
def submitText (seq : Sequencer τ) (text : String) (now : τ) : Outcome τ PatternSet :=
  let patterns := PatternText.compile text
  { seq.replacePatterns patterns now with result := patterns }

/-- Changes the tempo; ticks already dispatched keep their times. -/
def setTempo (seq : Sequencer τ) (bpm : τ) : Sequencer τ :=
  let seq := { seq with tempo := .ofBpm bpm }
  { seq with loop := seq.loop.map (·.retempo seq.stepDuration) }

/-! ## Polling -/

/-- Tells the observers of the pending ticks whose time is reached, up to the first whose time is
not. -/
def deliverDue (seq : Sequencer τ) (now : τ) : Sequencer τ × List (Effect τ) :=
  ({ seq with pending := seq.pending.dropWhile (·.time ≤ now) },
    (seq.pending.takeWhile (·.time ≤ now)).map fun tick =>
      .display (.stepAdvance tick.step tick.patterns))

/-- The backend calls of a tick. -/
def soundTick (policy : WrapPolicy) (tick : Tick τ) : List (Effect τ) :=
  (tick.patterns.dispatch policy tick.step tick.duration tick.time).map .sound

/-- The running loop steps over the ticks that are overdue by more than the lookahead and hands out
those that fall before the end of the window. -/
def fillWindow (seq : Sequencer τ) (now : τ) : Sequencer τ × List (Tick τ) :=
  match seq.state, seq.loop with
  | .running, some loop =>
    let (ticks, rest) :=
      (loop.skipBefore (now - seq.config.lookahead)).ticksBefore (now + seq.config.lookahead)
    ({ seq with
        loop := some rest
        pending := seq.pending ++ ticks
        step := if ticks.isEmpty then seq.step else rest.nextStep },
      ticks)
  | _, _ => (seq, [])

/-- Dispatches the ticks inside the lookahead window, then tells of the ticks that are due. -/
def poll (seq : Sequencer τ) (now : τ) : Outcome τ Unit :=
  let (filled, ticks) := seq.fillWindow now
  let (delivered, events) := filled.deliverDue now
  ⟨(), delivered, ticks.flatMap (soundTick seq.config.wrapPolicy) ++ events⟩

/-! ## Transport -/

/-- Starts from step 0 with the staged set, if there is one.  The audio clock has to be active
first; a running or paused transport is left alone. -/
def start {κ : Type} [AudioClock κ τ] (seq : Sequencer τ) (clock : κ) :
    Outcome τ (κ × Except Refusal Unit) :=
  if seq.state ≠ .stopped then ⟨(clock, .ok ()), seq, []⟩
  else
    let seq := { seq with patterns := seq.staged.getD seq.patterns, staged := none }
    let play (clock : κ) (before : List (Effect τ)) : Outcome τ (κ × Except Refusal Unit) :=
      ⟨(clock, .ok ()),
        { seq with step := 0, state := .running }.installLoop (AudioClock.now clock),
        before ++ [announce .playing]⟩
    if seq.patterns.cycleLength = 0 then
      ⟨(clock, .error .nothingToPlay), seq, [announce .stopped]⟩
    else if AudioClock.isActive clock then play clock []
    else match AudioClock.activate clock with
      | (clock, .error refusal) =>
        ⟨(clock, .error refusal), seq, [announce .waitingForAudio, announce .stopped]⟩
      | (clock, .ok ()) => play clock [announce .waitingForAudio]

/-- Drops the loop and every tick that is not heard yet.  The answer is the first step of the
dropped loop that was dispatched and not heard, else its next step. -/
def voidPending (seq : Sequencer τ) (now : τ) : Outcome τ Nat :=
  let (delivered, events) := seq.deliverDue now
  let resumeStep := match delivered.loop with
    | some loop =>
      match delivered.pending.find? (·.loopId = loop.id) with
      | some tick => tick.step
      | none => loop.nextStep
    | none => delivered.step
  ⟨resumeStep, { delivered with loop := none, pending := [] },
    events ++ [.sound (.cancelAfter now)]⟩

/-- Pauses a running transport, keeping the step that would have sounded next. -/
def pause (seq : Sequencer τ) (now : τ) : Outcome τ Unit :=
  match seq.state with
  | .running =>
    let voided := seq.voidPending now
    ⟨(), { voided.sequencer with step := voided.result, state := .paused },
      voided.effects ++ [announce .paused]⟩
  | _ => ⟨(), seq, []⟩

/-- Resumes a paused transport from the step it kept, or from step 0 of the staged set. -/
def resume (seq : Sequencer τ) (now : τ) : Outcome τ (Except Refusal Unit) :=
  match seq.state with
  | .paused =>
    let seq := match seq.staged with
      | some patterns => { seq with patterns := patterns, staged := none, step := 0 }
      | none => seq
    let cycle := seq.patterns.cycleLength
    if cycle = 0 then ⟨.error .nothingToPlay, seq, []⟩
    else
      ⟨.ok (), { seq with step := seq.step % cycle, state := .running }.installLoop now,
        [announce .playing]⟩
  | _ => ⟨.ok (), seq, []⟩

/-- Stops from any state and goes back to step 0. -/
def stop (seq : Sequencer τ) (now : τ) : Outcome τ Unit :=
  let voided := seq.voidPending now
  ⟨(), { voided.sequencer with step := 0, state := .stopped },
    voided.effects ++ [announce .stopped]⟩

end Sequencer

end Groovebox
