import Groovebox.Pattern

/-! # Dispatch

A step of a pattern set is dispatched by calling the sound backend for each token that is not a
rest, in track order.
-/

namespace Groovebox

/-- A call to the sound backend. -/
inductive BackendCall (τ : Type) where
  /-- Sounds a drum hit at a time. -/
  | hit (token : String) (time : τ)
  /-- Plays a pitch on a melodic track for a duration from a time on. -/
  | tone (track : Track) (token : String) (duration time : τ)
  /-- Sets the master level in decibels. -/
  | volume (db : Float)
  /-- Drops everything scheduled after a time that has not sounded yet. -/
  | cancelAfter (time : τ)
deriving Repr

namespace BackendCall

/-- The time of a call that makes a sound. -/
def soundTime? {τ : Type} : BackendCall τ → Option τ
  | hit _ time => some time
  | tone _ _ _ time => some time
  | volume _ => none
  | cancelAfter _ => none

end BackendCall

/-- The call that sounds a token on a track. -/
def Track.soundCall {τ : Type} (track : Track) (token : String) (duration time : τ) :
    BackendCall τ :=
  if track.isPercussion then .hit token time else .tone track token duration time

/-- The calls for one step of a pattern set. -/
def PatternSet.dispatch {τ : Type} (set : PatternSet) (policy : WrapPolicy) (step : Nat)
    (duration time : τ) : List (BackendCall τ) :=
  set.toList.filterMap fun (track, pattern) => do
    let token ← (pattern.tokenAt step policy).bind StepToken.sound?
    return track.soundCall token duration time

end Groovebox
