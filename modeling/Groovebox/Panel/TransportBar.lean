import Groovebox.Clock.StepClock
import Groovebox.Decimal.Layout
import Groovebox.Engine.State
import Groovebox.Panel.Label
import Groovebox.Transport

/-! # The transport bar

The bar has buttons for the transport, fields for the tempo and the master level, and a meter that
follows the peak of the engine smoothly.
-/

namespace Groovebox

/-- What the user asks for with the bar. -/
inductive BarAction where
  | start
  | pause
  | resume
  | stop
  | setTempo (bpm : Float)
  | setVolume (db : Float)

/-- The values that the bar shows. -/
structure TransportBar where
  bpm : Float
  volume : Float
  /-- The smoothed peak. -/
  meter : Float32

namespace TransportBar

/-! ## Values -/

/-- A master level brought into range. -/
def clampVolume (db : Float) : Float :=
  if db < EngineState.minVolume then EngineState.minVolume
  else if EngineState.maxVolume < db then EngineState.maxVolume
  else db

/-- A bar with values in range. -/
def new (bpm volume : Float) : TransportBar :=
  ⟨(Tempo.ofBpm bpm).bpm, clampVolume volume, 0⟩

/-- The nearest whole number, a half going to the even one; the sign stays, also that of zero. -/
def roundEven (x : Float) : Float :=
  let low := x.abs.floor
  let part := x.abs - low
  let magnitude :=
    if part < 0.5 then low
    else if 0.5 < part then low + 1
    else if (low / 2).floor * 2 == low then low else low + 1
  if hasMinus x then -magnitude else magnitude

/-- A whole number in digits, with its sign, also that of zero. -/
def wholeText (x : Float) : String :=
  signed (hasMinus x) (Nat.toDigits 10 x.abs.toUInt64.toNat)

/-- A typed number brought between two bounds; what is not a number counts as the upper one. -/
def typed (low high x : Float) : Float :=
  if x.isNaN then high else if x < low then low else if high < x then high else x

/-! ## Actions -/

/-- What the play button asks for; nothing while the audio is being activated. -/
def toggle : TransportStatus → Option BarAction
  | .playing => some .pause
  | .paused => some .resume
  | .stopped => some .start
  | .waitingForAudio => none

/-- A tempo is typed; it is brought into range. -/
def typeTempo (bar : TransportBar) (bpm : Float) : TransportBar × BarAction :=
  let bpm := typed Tempo.slowest Tempo.fastest bpm
  ({ bar with bpm := bpm }, .setTempo bpm)

/-- A master level is typed; it is brought into range and rounded to whole decibels.  A level equal
to the one that is shown leaves it as it is, with its sign if it is zero. -/
def typeVolume (bar : TransportBar) (db : Float) : TransportBar × BarAction :=
  let db := typed EngineState.minVolume EngineState.maxVolume db
  let volume := if db == bar.volume then bar.volume else roundEven db
  ({ bar with volume := volume }, .setVolume volume)

/-! ## Labels -/

/-- The text and colour of a status. -/
def statusLabel : TransportStatus → Label
  | .playing => .coloured "Playing" ⟨100, 200, 100⟩
  | .paused => .coloured "Paused" ⟨200, 170, 80⟩
  | .stopped => .coloured "Stopped" (.grey 160)
  | .waitingForAudio => .coloured "Starting audio..." ⟨120, 160, 220⟩

/-- The number of a step as people count, at least two characters wide. -/
def stepLabel (step : Nat) : Label :=
  let digits := toString (step + 1)
  .plain ("step " ++ (if digits.length < 2 then " " ++ digits else digits))

/-- The labels of the bar from left to right; the ones at the right edge come last. -/
def labels (bar : TransportBar) (status : TransportStatus) (step : Option Nat) : List Label :=
  [.plain (if status = .playing then "\u23f8" else "\u25b6"),
    .plain "\u23f9",
    .plain "BPM:",
    .plain (wholeText (roundEven bar.bpm)),
    .plain "Vol:",
    .plain (wholeText bar.volume ++ " dB"),
    statusLabel status] ++ step.toList.map stepLabel

/-! ## The meter -/

/-- The meter one frame later: it moves towards the peak, and sinks while nothing plays. -/
def stepMeter (bar : TransportBar) (peak : Float32) (playing : Bool) : TransportBar :=
  let smoothing : Float32 := 0.3
  let meter := bar.meter * (1 - smoothing) + peak * smoothing
  { bar with meter := if playing then meter else meter * 0.9 }

/-- The bar after a number of frames. -/
def stepFrames (bar : TransportBar) (peak : Float32) (playing : Bool) : Nat → TransportBar
  | 0 => bar
  | count + 1 => (bar.stepMeter peak playing).stepFrames peak playing count

/-- The level of a peak in decibels, at least −60. -/
def decibels (peak : Float32) : Float32 :=
  if peak < 0.00001 then -60 else 20 * Float32.log10 peak

/-- The width of the whole meter. -/
def meterWidth : Float32 := 120

/-- The width of a level on the meter, which begins at −60 dB. -/
def levelWidth (db : Float32) : Float32 :=
  let part := (db + 60) / 60
  (if part < 0 then 0 else if 1 < part then 1 else part) * meterWidth

/-- The colour of a level: red near the top, yellow below it. -/
def levelColour (db : Float32) : Colour :=
  if -6 < db then ⟨180, 50, 50⟩ else if -12 < db then ⟨180, 160, 50⟩ else ⟨50, 160, 50⟩

/-- The bars of the meter by width and colour: the background, and the level if it shows. -/
def meterBars (bar : TransportBar) : List (Float32 × Colour) :=
  let db := decibels bar.meter
  let width := levelWidth db
  (meterWidth, .grey 25) :: if 0 < width then [(width, levelColour db)] else []

end TransportBar

end Groovebox
