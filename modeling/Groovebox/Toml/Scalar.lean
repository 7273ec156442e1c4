import Groovebox.Toml.Text
import Groovebox.Toml.Value

/-! # Numbers, booleans and dates

These are written without quotes.  Digits may be grouped by single underscores between them; a
number with a point or an exponent is not an integer.
-/

namespace Groovebox.Toml

/-! ## Digits -/

/-- The parts of a text between underscores. -/
def groups : List Char → List (List Char)
  | [] => [[]]
  | '_' :: cs => [] :: groups cs
  | c :: cs => match groups cs with
    | [] => [[c]]
    | g :: gs => (c :: g) :: gs

/-- The value of a digit of a base. -/
def digit? (base : Nat) (c : Char) : Option Nat :=
  (hexDigit? c).filter (· < base)

/-- The values of the digits of a text that holds nothing but digits, grouped by underscores. -/
def digits? (base : Nat) (cs : List Char) : Option (List Nat) :=
  let parts := groups cs
  if parts.any List.isEmpty then none else parts.flatten.mapM (digit? base)

/-- The number that some digits make. -/
def valueOf (base : Nat) (digits : List Nat) : Nat :=
  digits.foldl (fun value digit => value * base + digit) 0

/-- The digits of a decimal number that begins with a zero only if it is zero. -/
def decimal? (cs : List Char) : Option (List Nat) := do
  match ← digits? 10 cs with
  | 0 :: _ :: _ => none
  | digits => some digits

/-- A sign, if there is one, and what follows it. -/
def sign : List Char → Bool × List Char
  | '-' :: cs => (true, cs)
  | '+' :: cs => (false, cs)
  | cs => (false, cs)

/-! ## Integers -/

/-- Integers lie between these two bounds, the first included. -/
def integerBounds : Int × Int := (-Int.pow 2 127, Int.pow 2 128)

/-- Reads an integer: decimal with an optional sign, or in base 16, 8 or 2 without one. -/
def integer? (cs : List Char) : Option Value := do
  let value : Int ← match cs with
    | '0' :: 'x' :: digits => (digits? 16 digits).map fun ds => (valueOf 16 ds : Int)
    | '0' :: 'o' :: digits => (digits? 8 digits).map fun ds => (valueOf 8 ds : Int)
    | '0' :: 'b' :: digits => (digits? 2 digits).map fun ds => (valueOf 2 ds : Int)
    | cs =>
      let (negative, digits) := sign cs
      (decimal? digits).map fun ds =>
        if negative then -(valueOf 10 ds : Int) else (valueOf 10 ds : Int)
  return if integerBounds.1 ≤ value ∧ value < integerBounds.2 then .integer value else .overflow

/-! ## Floats -/

/-- The parts of a text around the first character with a property. -/
def splitAtFirst? (test : Char → Bool) (cs : List Char) : Option (List Char × List Char) :=
  match cs.dropWhile (!test ·) with
  | [] => none
  | _ :: rest => some (cs.takeWhile (!test ·), rest)

/-- The float nearest to `digits * 10 ^ exponent`. -/
def scaledFloat (digits : List Nat) (exponent : Int) : Float :=
  let value := valueOf 10 digits
  let size := (Nat.toDigits 10 value).length
  if value = 0 ∨ exponent + size < -400 then 0
  else if 400 < exponent + size then 1.0 / 0.0
  else Float.ofScientific value (decide (exponent < 0)) exponent.natAbs

/-- Reads the exponent of a float; leading zeros are fine. -/
def exponent? (cs : List Char) : Option Int := do
  let (negative, digits) := sign cs
  let value : Int := valueOf 10 (← digits? 10 digits)
  return if negative then -value else value

/-- Reads the magnitude of a float that is written with digits and a point, an exponent or both. -/
def magnitude? (cs : List Char) : Option Float := do
  let (mantissa, exponent) ← match splitAtFirst? (fun c => c == 'e' || c == 'E') cs with
    | some (mantissa, power) => (exponent? power).map (mantissa, ·)
    | none => if cs.contains '.' then some (cs, 0) else none
  match splitAtFirst? (· == '.') mantissa with
  | some (whole, fraction) =>
    let whole ← decimal? whole
    let fraction ← digits? 10 fraction
    return scaledFloat (whole ++ fraction) (exponent - fraction.length)
  | none => return scaledFloat (← decimal? mantissa) exponent

/-- Reads a float: a magnitude or a special value, with an optional sign. -/
def float? (cs : List Char) : Option Value := do
  let (negative, cs) := sign cs
  let signed (x : Float) : Value := .number (if negative then -x else x)
  match cs with
  | ['i', 'n', 'f'] => return signed (1.0 / 0.0)
  | ['n', 'a', 'n'] => return signed (0.0 / 0.0)
  | cs =>
    let x ← magnitude? cs
    return if x.isInf then .overflow else signed x

/-! ## Dates and times -/

/-- Reads a number of exactly so many digits within bounds. -/
def field? (count low high : Nat) (cs : List Char) : Option (Nat × List Char) := do
  let digits ← (cs.take count).mapM (digit? 10)
  let value := valueOf 10 digits
  if digits.length = count ∧ low ≤ value ∧ value ≤ high then some (value, cs.drop count) else none

/-- Passes over one given character. -/
def expect? (c : Char) : List Char → Option (List Char)
  | d :: cs => if d = c then some cs else none
  | [] => none

/-- The number of days of a month. -/
def daysIn (year month : Nat) : Nat :=
  if month = 2 then
    if year % 4 = 0 ∧ (year % 100 ≠ 0 ∨ year % 400 = 0) then 29 else 28
  else if month = 4 ∨ month = 6 ∨ month = 9 ∨ month = 11 then 30 else 31

/-- Passes over a date. -/
def date? (cs : List Char) : Option (List Char) := do
  let (year, cs) ← field? 4 0 9999 cs
  let (month, cs) ← field? 2 1 12 (← expect? '-' cs)
  let (_, cs) ← field? 2 1 (daysIn year month) (← expect? '-' cs)
  return cs

/-- Passes over the seconds of a time, which may be left out. -/
def seconds? : List Char → Option (List Char)
  | ':' :: cs => do
    let (_, cs) ← field? 2 0 60 cs
    match cs with
    | '.' :: cs =>
      let fraction := cs.takeWhile Char.isDigit
      if fraction.isEmpty then none else return cs.drop fraction.length
    | cs => return cs
  | cs => some cs

/-- Passes over a time of day. -/
def time? (cs : List Char) : Option (List Char) := do
  let (_, cs) ← field? 2 0 23 cs
  let (_, cs) ← field? 2 0 59 (← expect? ':' cs)
  seconds? cs

/-- Passes over the distance from universal time, which may be left out. -/
def offset? : List Char → Option (List Char)
  | [] => some []
  | ['Z'] => some []
  | ['z'] => some []
  | c :: cs => do
    if c != '+' && c != '-' then none
    let (_, cs) ← field? 2 0 23 cs
    let (_, cs) ← field? 2 0 59 (← expect? ':' cs)
    return cs

/-- Whether a text is a date, a time of day, or both. -/
def isMoment (cs : List Char) : Bool :=
  match date? cs with
  | some [] => true
  | some (separator :: rest) =>
    (separator == 'T' || separator == 't' || separator == ' ') &&
      (time? rest).bind offset? == some []
  | none => time? cs == some []

/-! ## Scalars -/

/-- The characters of values that are written without quotes. -/
def isScalarChar (c : Char) : Bool :=
  c.isAlphanum || c == '_' || c == '-' || c == '+' || c == '.' || c == ':'

/-- The extent of a scalar; a date and a time with a space between them are one. -/
def scalarText (cs : List Char) : List Char × List Char :=
  let word := cs.takeWhile isScalarChar
  let rest := cs.drop word.length
  match rest with
  | ' ' :: d :: _ =>
    if date? word == some [] && d.isDigit then
      let time := rest.tail.takeWhile isScalarChar
      (word ++ ' ' :: time, rest.drop (time.length + 1))
    else (word, rest)
  | _ => (word, rest)

/-- Reads a value that is written without quotes or brackets. -/
def scalar? (cs : List Char) : Option (Value × List Char) :=
  let (word, rest) := scalarText cs
  let value : Option Value := match word with
    | ['t', 'r', 'u', 'e'] => some (.boolean true)
    | ['f', 'a', 'l', 's', 'e'] => some (.boolean false)
    | word =>
      if isMoment word then some .moment
      else (integer? word).or (float? word)
  value.map (·, rest)

end Groovebox.Toml
