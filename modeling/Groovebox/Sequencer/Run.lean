import Groovebox.Sequencer.Basic

/-! # Runs of a sequencer

A run applies a list of operations one after another and keeps what each of them did.
-/

namespace Groovebox

/-- An operation on a sequencer. -/
inductive Operation (τ : Type) where
  | subscribe
  | replacePatterns (patterns : PatternSet) (now : τ)
  | submitText (text : String) (now : τ)
  /-- A start with the clock as the operation finds it. -/
  | start (clock : ManualClock τ)
  | pause (now : τ)
  | resume (now : τ)
  | stop (now : τ)
  | setTempo (bpm : τ)
  | poll (now : τ)
deriving Repr

namespace Sequencer

variable {τ : Type} [TimeScale τ]

/-- Applies an operation; only a start or a resume can be refused. -/
def apply (seq : Sequencer τ) : Operation τ → Outcome τ (Except Refusal Unit)
  | .subscribe => ⟨.ok (), seq.subscribe, []⟩
  | .replacePatterns patterns now => { seq.replacePatterns patterns now with result := .ok () }
  | .submitText text now => { seq.submitText text now with result := .ok () }
  | .start clock =>
    let outcome := seq.start clock
    { outcome with result := outcome.result.2 }
  | .pause now => { seq.pause now with result := .ok () }
  | .resume now => seq.resume now
  | .stop now => { seq.stop now with result := .ok () }
  | .setTempo bpm => ⟨.ok (), seq.setTempo bpm, []⟩
  | .poll now => { seq.poll now with result := .ok () }

/-- The sequencer after a list of operations. -/
def after (seq : Sequencer τ) (operations : List (Operation τ)) : Sequencer τ :=
  operations.foldl (fun seq operation => (seq.apply operation).sequencer) seq

/-- What each operation of a list answers and does. -/
def run (seq : Sequencer τ) : List (Operation τ) → List (Outcome τ (Except Refusal Unit))
  | [] => []
  | operation :: rest =>
    let outcome := seq.apply operation
    outcome :: outcome.sequencer.run rest

/-- What a list of operations does to the outside, in order. -/
def effects (seq : Sequencer τ) (operations : List (Operation τ)) : List (Effect τ) :=
  (seq.run operations).flatMap (·.effects)

end Sequencer

end Groovebox
