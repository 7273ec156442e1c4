import Groovebox.Engine.Basic
import Groovebox.Sequencer.Basic

/-! # Live sessions

A session plays a sequencer through an audio output.  It waits for commands; each one is applied,
and then the sequencer is polled.  When no command comes for a while the sequencer is polled all the
same.  A shutdown stops the transport and ends the session.

A live session plays through an engine on the default output device.  The device is opened by the
first start, and the master level is set before any other command.
-/

namespace Groovebox

/-- A request to a session. -/
inductive SessionCommand (τ : Type) where
  | start
  | pause
  | resume
  | stop
  | setTempo (bpm : τ)
  | setVolume (db : Float)
  | submitText (text : String)
  | shutdown
deriving Repr

/-- What a session reports. -/
inductive SessionEvent where
  | display (event : DisplayEvent)
  /-- A start or resume was refused. -/
  | rejected (refusal : Refusal)
deriving DecidableEq, Repr

/-- Something that a session does to the outside. -/
inductive SessionEffect (τ : Type) where
  | sound (call : BackendCall τ)
  | report (event : SessionEvent)
deriving Repr

/-- Why a command does not reach a session. -/
inductive SessionError where
  /-- The session is over. -/
  | disconnected
deriving DecidableEq, Repr

/-- A session error in words. -/
def SessionError.message : SessionError → String
  | disconnected => "Session thread has exited"

/-- What ends a session's waiting. -/
inductive Wake (τ : Type) where
  | command (command : SessionCommand τ)
  /-- No command came for a poll interval. -/
  | timeout
  /-- No command will come any more. -/
  | closed
deriving Repr

/-- A sequencer that plays through an audio output. -/
structure Session (κ τ : Type) where
  sequencer : Sequencer τ
  output : κ
  finished : Bool

namespace Session

variable {κ τ : Type} [TimeScale τ] [AudioOutput κ τ]

/-- A session on an output.  The session itself is the only observer of its sequencer. -/
def new (config : SequencerConfig τ) (output : κ) : Session κ τ :=
  ⟨(Sequencer.new config).subscribe, output, false⟩

/-- The audio time. -/
def now (session : Session κ τ) : τ :=
  AudioClock.now session.output

/-- An effect of the sequencer as the session passes it on. -/
def passOn : Effect τ → SessionEffect τ
  | .sound call => .sound call
  | .display event => .report (.display event)

/-- The output after it has performed the calls among some effects. -/
def performAll (output : κ) (effects : List (SessionEffect τ)) : κ :=
  effects.foldl (fun output effect => match effect with
    | .sound call => AudioOutput.perform output call
    | .report _ => output) output

/-- The session with a new sequencer, after what was done to the outside. -/
def settle (session : Session κ τ) (sequencer : Sequencer τ) (effects : List (SessionEffect τ)) :
    Session κ τ × List (SessionEffect τ) :=
  ({ session with sequencer := sequencer, output := performAll session.output effects }, effects)

/-- The session after an operation on its sequencer. -/
def follow {α : Type} (session : Session κ τ) (outcome : Outcome τ α) :
    Session κ τ × List (SessionEffect τ) :=
  session.settle outcome.sequencer (outcome.effects.map passOn)

/-- The report of a refusal, if there is one. -/
def rejection : Except Refusal Unit → List (SessionEffect τ)
  | .ok () => []
  | .error refusal => [.report (.rejected refusal)]

/-- Applies a command; a shutdown is not applied here. -/
def apply (session : Session κ τ) (command : SessionCommand τ) :
    Session κ τ × List (SessionEffect τ) :=
  match command with
  | .start =>
    let outcome := session.sequencer.start session.output
    let (output, result) := outcome.result
    { session with output := output }.settle outcome.sequencer
      (outcome.effects.map passOn ++ rejection result)
  | .pause => session.follow (session.sequencer.pause session.now)
  | .resume =>
    let outcome := session.sequencer.resume session.now
    session.settle outcome.sequencer (outcome.effects.map passOn ++ rejection outcome.result)
  | .stop => session.follow (session.sequencer.stop session.now)
  | .setTempo bpm => session.settle (session.sequencer.setTempo bpm) []
  | .setVolume db => session.settle session.sequencer [.sound (.volume db)]
  | .submitText text => session.follow (session.sequencer.submitText text session.now)
  | .shutdown => (session, [])

/-- Polls the sequencer at the audio time. -/
def poll (session : Session κ τ) : Session κ τ × List (SessionEffect τ) :=
  session.follow (session.sequencer.poll session.now)

/-- Stops the transport and ends the session. -/
def finish (session : Session κ τ) : Session κ τ × List (SessionEffect τ) :=
  let (session, effects) := session.follow (session.sequencer.stop session.now)
  ({ session with finished := true }, effects)

/-- What a session does when its waiting ends; once it is over it does nothing. -/
def wake (session : Session κ τ) (wake : Wake τ) : Session κ τ × List (SessionEffect τ) :=
  if session.finished then (session, [])
  else match wake with
    | .command .shutdown => session.finish
    | .closed => session.finish
    | .timeout => session.poll
    | .command command =>
      let (session, applied) := session.apply command
      let (session, polled) := session.poll
      (session, applied ++ polled)

/-- A session's life: before each waking the output has moved on in some way. -/
def run (session : Session κ τ) :
    List ((κ → κ) × Wake τ) → Session κ τ × List (SessionEffect τ)
  | [] => (session, [])
  | (move, wake) :: rest =>
    let (session, effects) := { session with output := move session.output }.wake wake
    let (session, later) := session.run rest
    (session, effects ++ later)

/-- The answer to someone who sends a command. -/
def reply (session : Session κ τ) : Except SessionError Unit :=
  if session.finished then .error .disconnected else .ok ()

end Session

/-! ## Sessions on the audio engine -/

/-- A session that plays through an audio engine. -/
abbrev LiveSession := Session AudioEngine Float

namespace LiveSession

/-- A session on a new engine, with the reports of its first command, which sets the level. -/
def spawn (config : SequencerConfig Float) (engine : AudioEngine) (volume : Float) :
    LiveSession × List (SessionEffect Float) :=
  Session.wake (Session.new config engine) (.command (.setVolume volume))

end LiveSession

end Groovebox
