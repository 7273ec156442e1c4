/-! # Colours and labels

What the panels paint with.
-/

namespace Groovebox

/-- A colour by its red, green and blue parts, from 0 to 255. -/
structure Colour where
  red : Nat
  green : Nat
  blue : Nat
deriving DecidableEq, Repr

namespace Colour

/-- A grey. -/
def grey (level : Nat) : Colour := ⟨level, level, level⟩

/-- White. -/
def white : Colour := grey 255

end Colour

/-- A text, in the colour of the toolkit unless it has one of its own. -/
structure Label where
  text : String
  colour : Option Colour
deriving DecidableEq, Repr

namespace Label

/-- A text in the colour of the toolkit. -/
def plain (text : String) : Label := ⟨text, none⟩

/-- A text in a colour of its own. -/
def coloured (text : String) (colour : Colour) : Label := ⟨text, some colour⟩

end Label

end Groovebox
