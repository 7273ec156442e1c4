import Groovebox.Dispatch

/-! # Audio clocks

The host's clock tells the audio time.  Before the first start it has to be activated, which the
host may refuse.
-/

namespace Groovebox

/-- Why the transport does not start or resume. -/
inductive Refusal where
  /-- The pattern set has no steps. -/
  | nothingToPlay
  /-- The audio clock could not be activated. -/
  | audioInactive (reason : String)
deriving DecidableEq, Repr

/-- A refusal in words. -/
def Refusal.message : Refusal → String
  | nothingToPlay => "Nothing to play: the pattern set is empty"
  | audioInactive reason => "Audio context not active: " ++ reason

/-- A clock that tells audio times once it is active. -/
class AudioClock (κ : Type) (τ : outParam Type) where
  /-- The audio time. -/
  now : κ → τ
  /-- Whether the clock has been activated. -/
  isActive : κ → Bool
  /-- Tries to activate the clock. -/
  activate : κ → κ × Except Refusal Unit

/-- An audio clock together with the sound backend that plays by it. -/
class AudioOutput (κ : Type) (τ : outParam Type) extends AudioClock κ τ where
  /-- Performs a backend call. -/
  perform : κ → BackendCall τ → κ

/-- A clock that is set by hand. -/
structure ManualClock (τ : Type) where
  now : τ
  active : Bool
  /-- The reason with which every activation is refused. -/
  refusal : Option String
deriving DecidableEq, Repr

namespace ManualClock

/-- Activation succeeds unless the clock refuses it, and then changes nothing. -/
def activate {τ : Type} (clock : ManualClock τ) : ManualClock τ × Except Refusal Unit :=
  match clock.refusal with
  | some reason => (clock, .error (.audioInactive reason))
  | none => ({ clock with active := true }, .ok ())

/-- No sound is played by a clock that is set by hand. -/
instance {τ : Type} : AudioOutput (ManualClock τ) τ where
  now := ManualClock.now
  isActive := ManualClock.active
  activate := ManualClock.activate
  perform clock _ := clock

end ManualClock

end Groovebox
