import Groovebox.Panel.Label
import Groovebox.PatternText.Compile

/-! # The step grid

One row for each track of a pattern set and one cell for each step of the cycle.  A cell's colour
tells rests, steps past the end, tokens that cannot sound, and the tracks apart; the current step
has a ring.
-/

namespace Groovebox

/-- A rectangle by its edges. -/
structure Rect where
  left : Float32
  top : Float32
  right : Float32
  bottom : Float32

namespace Rect

/-- The distance between the left and the right edge. -/
def width (rect : Rect) : Float32 :=
  rect.right - rect.left

/-- The distance between the top and the bottom edge. -/
def height (rect : Rect) : Float32 :=
  rect.bottom - rect.top

/-- The rectangle of a given size at a given left and top edge. -/
def ofSize (left top width height : Float32) : Rect :=
  ⟨left, top, left + width, top + height⟩

end Rect

/-- Something that the grid paints. -/
inductive GridItem where
  | text (label : Label)
  /-- A filled cell. -/
  | cell (rect : Rect) (colour : Colour)
  /-- The outline of a cell. -/
  | ring (rect : Rect) (colour : Colour)

namespace StepGrid

/-! ## Cells -/

/-- The colour of a cell. -/
def cellColour (track : Track) : Option StepToken → Colour
  | none => .grey 22
  | some .rest => .grey 38
  | some (.play text) =>
    if !PatternText.isValidToken text track then ⟨120, 50, 50⟩
    else match track with
      | .drums => ⟨70, 110, 160⟩
      | .bass => ⟨70, 140, 90⟩
      | .synth => ⟨140, 90, 150⟩

/-- The beginning of a text that takes up exactly so many bytes, if there is one. -/
def takeBytes? : Nat → List Char → Option (List Char)
  | 0, _ => some []
  | _ + 1, [] => none
  | count + 1, c :: cs =>
    if c.utf8Size ≤ count + 1 then (takeBytes? (count + 1 - c.utf8Size) cs).map (c :: ·) else none

/-- The text in a cell: an abbreviation, or the first four bytes of the token unless they end
inside a character. -/
def shortLabel (token : String) : String :=
  if token = "openhat" then "oh"
  else if token = "hihat" then "hh"
  else if token = "cowbell" then "cb"
  else if token = "crash" then "cr"
  else match takeBytes? 4 token.toList with
    | some front => String.ofList front
    | none => token

/-! ## Measures -/

/-- The width of the track names. -/
def labelWidth : Float32 := 56

/-- The height of a row. -/
def rowHeight : Float32 := 28

/-- The nearest width on the layout grid, whose lines are a 32nd apart. -/
def snap (width : Float32) : Float32 :=
  (width * 32).round / 32

/-- The width of a cell and the gap after it: the cells share the width beside the names, within
bounds. -/
def cellWidth (width : Float32) (cycle : Nat) : Float32 :=
  let share := (snap width - labelWidth) / Float32.ofNat cycle
  if share < 8 then 8 else if 48 < share then 48 else share

/-- The cell of a step in a row. -/
def cellRect (cellWidth : Float32) (row step : Nat) : Rect :=
  .ofSize (labelWidth + Float32.ofNat step * cellWidth) (Float32.ofNat row * rowHeight + 2)
    (cellWidth - 2) (rowHeight - 4)

/-! ## Painting -/

/-- What is painted for one step of a track. -/
def paintStep (policy : WrapPolicy) (current : Option Nat) (cellWidth : Float32) (row : Nat)
    (track : Track) (pattern : Pattern) (step : Nat) : List GridItem :=
  let rect := cellRect cellWidth row step
  let token := pattern.tokenAt step policy
  let ring := if current = some step then [GridItem.ring rect .white] else []
  let label := match token.bind StepToken.sound? with
    | some text =>
      if 24 ≤ cellWidth then [GridItem.text (.coloured (shortLabel text) .white)] else []
    | none => []
  .cell rect (cellColour track token) :: ring ++ label

/-- What is painted for one track: its name, then its cells. -/
def paintRow (policy : WrapPolicy) (current : Option Nat) (cellWidth : Float32) (cycle row : Nat)
    (track : Track) (pattern : Pattern) : List GridItem :=
  .text (.coloured track.name (.grey 190)) ::
    (List.range cycle).flatMap (paintStep policy current cellWidth row track pattern)

/-- The hint that is shown when there is nothing to play. -/
def hint : String := "Type a pattern, e.g. `drums: kick - snare -`"

/-- What the grid paints, in order, for a set in a window of some width. -/
def paint (policy : WrapPolicy) (set : PatternSet) (current : Option Nat) (width : Float32) :
    List GridItem :=
  let cycle := set.cycleLength
  if cycle = 0 then [.text (.plain hint)]
  else
    set.toList.zipIdx.flatMap fun ((track, pattern), row) =>
      paintRow policy current (cellWidth width cycle) cycle row track pattern

end StepGrid

end Groovebox
