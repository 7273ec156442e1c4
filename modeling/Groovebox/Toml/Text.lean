/-! # Texts and keys

Texts stand in double quotes, with escapes, or in single quotes, as they are; three quotes enclose
a text of several lines.  A key is bare or a text of one line, and keys are joined by points.
-/

namespace Groovebox.Toml

/-! ## Blanks, comments and line ends -/

/-- The characters that separate words of a line. -/
def isSpace (c : Char) : Bool :=
  c == ' ' || c == '\t'

/-- The characters that may stand neither in a text of one line nor in a comment. -/
def isControl (c : Char) : Bool :=
  (c.toNat < 0x20 && c != '\t') || c.toNat == 0x7F

/-- Passes over spaces. -/
def skipSpaces (cs : List Char) : List Char :=
  cs.dropWhile isSpace

/-- Passes over spaces, line ends and comments; the flag says whether a comment is running. -/
def skipFiller : Bool → List Char → Option (List Char)
  | _, [] => some []
  | _, '\n' :: cs => skipFiller false cs
  | _, '\r' :: '\n' :: cs => skipFiller false cs
  | false, '#' :: cs => skipFiller true cs
  | false, c :: cs => if isSpace c then skipFiller false cs else some (c :: cs)
  | true, c :: cs => if isControl c then none else skipFiller true cs

/-- Passes over the rest of a line that says nothing more; the flag says whether a comment is
running. -/
def endLine : Bool → List Char → Option (List Char)
  | _, [] => some []
  | _, '\n' :: cs => some cs
  | _, '\r' :: '\n' :: cs => some cs
  | false, '#' :: cs => endLine true cs
  | false, c :: cs => if isSpace c then endLine false cs else none
  | true, c :: cs => if isControl c then none else endLine true cs

/-! ## Escapes -/

/-- The value of a hexadecimal digit. -/
def hexDigit? (c : Char) : Option Nat :=
  if '0' ≤ c ∧ c ≤ '9' then some (c.toNat - '0'.toNat)
  else if 'a' ≤ c ∧ c ≤ 'f' then some (c.toNat - 'a'.toNat + 10)
  else if 'A' ≤ c ∧ c ≤ 'F' then some (c.toNat - 'A'.toNat + 10)
  else none

/-- The character whose number some hexadecimal digits give. -/
def hexChar? (digits : List Char) : Option Char := do
  let values ← digits.mapM hexDigit?
  let code := values.foldl (fun code value => code * 16 + value) 0
  if code.isValidChar then some (Char.ofNat code) else none

/-- The character of an escape of a given number of hexadecimal digits. -/
def hexEscape? (count : Nat) (cs : List Char) : Option (Char × List Char) :=
  if count ≤ cs.length then (hexChar? (cs.take count)).map (·, cs.drop count) else none

/-- The character that an escape stands for, read after the backslash. -/
def escape? : List Char → Option (Char × List Char)
  | 'b' :: cs => some ('\x08', cs)
  | 't' :: cs => some ('\t', cs)
  | 'n' :: cs => some ('\n', cs)
  | 'f' :: cs => some ('\x0c', cs)
  | 'r' :: cs => some ('\r', cs)
  | 'e' :: cs => some ('\x1b', cs)
  | '"' :: cs => some ('"', cs)
  | '\\' :: cs => some ('\\', cs)
  | 'x' :: cs => hexEscape? 2 cs
  | 'u' :: cs => hexEscape? 4 cs
  | 'U' :: cs => hexEscape? 8 cs
  | _ => none

/-! ## Texts -/

/-- Puts a character before a text that was read. -/
def before (c : Char) (read : Option (List Char × List Char)) : Option (List Char × List Char) :=
  read.map fun (text, rest) => (c :: text, rest)

/-- Reads a text of one line up to its closing double quote. -/
def quoted? : Nat → List Char → Option (List Char × List Char)
  | 0, _ => none
  | _, [] => none
  | _, '"' :: cs => some ([], cs)
  | fuel + 1, '\\' :: cs => do
    let (c, rest) ← escape? cs
    before c (quoted? fuel rest)
  | fuel + 1, c :: cs => if isControl c then none else before c (quoted? fuel cs)

/-- Reads a text of one line up to its closing single quote. -/
def literal? : List Char → Option (List Char × List Char)
  | [] => none
  | '\'' :: cs => some ([], cs)
  | c :: cs => if isControl c then none else before c (literal? cs)

/-- After three closing quotes, up to two more belong to the text. -/
def closing? (quote : Char) (cs : List Char) : Option (List Char × List Char) :=
  let more := cs.takeWhile (· == quote)
  if more.length ≤ 2 then some (more, cs.drop more.length) else none

/-- Passes over spaces and line ends. -/
def skipBlank : List Char → List Char
  | '\r' :: '\n' :: cs => skipBlank cs
  | c :: cs => if isSpace c || c == '\n' then skipBlank cs else c :: cs
  | [] => []

/-- A backslash at the end of a line takes the line end and all blanks after it away. -/
def continued? (cs : List Char) : Option (List Char) :=
  match skipSpaces cs with
  | '\n' :: rest => some (skipBlank rest)
  | '\r' :: '\n' :: rest => some (skipBlank rest)
  | _ => none

/-- Reads a text of several lines up to its closing double quotes. -/
def longQuoted? : Nat → List Char → Option (List Char × List Char)
  | 0, _ => none
  | _, [] => none
  | _, '"' :: '"' :: '"' :: cs => closing? '"' cs
  | fuel + 1, '\\' :: cs =>
    match escape? cs with
    | some (c, rest) => before c (longQuoted? fuel rest)
    | none => do longQuoted? fuel (← continued? cs)
  | fuel + 1, '\r' :: '\n' :: cs => before '\n' (longQuoted? fuel cs)
  | fuel + 1, c :: cs =>
    if isControl c && c != '\n' then none else before c (longQuoted? fuel cs)

/-- Reads a text of several lines up to its closing single quotes. -/
def longLiteral? : List Char → Option (List Char × List Char)
  | [] => none
  | '\'' :: '\'' :: '\'' :: cs => closing? '\'' cs
  | '\r' :: '\n' :: cs => before '\n' (longLiteral? cs)
  | c :: cs => if isControl c && c != '\n' then none else before c (longLiteral? cs)

/-- A line end directly after the opening quotes is not part of the text. -/
def skipFirstLineEnd : List Char → List Char
  | '\n' :: cs => cs
  | '\r' :: '\n' :: cs => cs
  | cs => cs

/-- Reads a text from its opening quotes on. -/
def text? : List Char → Option (String × List Char)
  | '"' :: '"' :: '"' :: cs =>
    (longQuoted? (cs.length + 1) (skipFirstLineEnd cs)).map fun (text, rest) =>
      (String.ofList text, rest)
  | '\'' :: '\'' :: '\'' :: cs =>
    (longLiteral? (skipFirstLineEnd cs)).map fun (text, rest) => (String.ofList text, rest)
  | '"' :: cs =>
    (quoted? (cs.length + 1) cs).map fun (text, rest) => (String.ofList text, rest)
  | '\'' :: cs => (literal? cs).map fun (text, rest) => (String.ofList text, rest)
  | _ => none

/-! ## Keys -/

/-- The characters of a bare key. -/
def isKeyChar (c : Char) : Bool :=
  c.isAlphanum || c == '_' || c == '-'

/-- Reads one key. -/
def key? : List Char → Option (String × List Char)
  | '"' :: cs =>
    (quoted? (cs.length + 1) cs).map fun (text, rest) => (String.ofList text, rest)
  | '\'' :: cs => (literal? cs).map fun (text, rest) => (String.ofList text, rest)
  | cs =>
    let name := cs.takeWhile isKeyChar
    if name.isEmpty then none else some (String.ofList name, cs.drop name.length)

/-- The deepest nesting of arrays and braces, and the most keys that are joined by points. -/
def maxDepth : Nat := 80

/-- Reads at most so many keys that are joined by points, with the spaces around them. -/
def keys? : Nat → List Char → Option (List String × List Char)
  | 0, _ => none
  | count + 1, cs => do
    let (key, rest) ← key? (skipSpaces cs)
    match skipSpaces rest with
    | '.' :: rest =>
      let (keys, rest) ← keys? count rest
      return (key :: keys, rest)
    | rest => return ([key], rest)

/-- Reads a dotted key. -/
def path? (cs : List Char) : Option (List String × List Char) :=
  keys? maxDepth cs

end Groovebox.Toml
