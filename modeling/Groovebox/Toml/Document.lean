import Groovebox.Toml.Scalar

/-! # Documents

A document is a list of lines.  Each gives a key its value, or is the header of the table that the
following lines belong to.
-/

namespace Groovebox.Toml

/-! ## Values -/

/-- Reads the items of an array up to its closing bracket; a comma may follow the last one. -/
def items? (value : List Char → Option (Value × List Char)) :
    Nat → List Char → Option (List Value × List Char)
  | 0, _ => none
  | fuel + 1, cs => do
    match ← skipFiller false cs with
    | ']' :: rest => return ([], rest)
    | cs =>
      let (item, rest) ← value cs
      match ← skipFiller false rest with
      | ',' :: rest =>
        let (items, rest) ← items? value fuel rest
        return (item :: items, rest)
      | ']' :: rest => return ([item], rest)
      | _ => none

/-- Reads a key, an equals sign and a value, with what may be skipped around the equals sign. -/
def assignment? (skip : List Char → Option (List Char))
    (value : List Char → Option (Value × List Char)) (cs : List Char) :
    Option (List String × Value × List Char) := do
  let (path, rest) ← path? cs
  let rest ← expect? '=' (← skip rest)
  let (v, rest) ← value (← skip rest)
  return (path, v, rest)

/-- Reads the entries of a table in braces up to its closing brace; a comma may follow the last
one.  Line ends and comments may stand anywhere but inside a dotted key. -/
def braces? (value : List Char → Option (Value × List Char)) :
    Nat → Entries → List Char → Option (Entries × List Char)
  | 0, _, _ => none
  | fuel + 1, entries, cs => do
    match ← skipFiller false cs with
    | '}' :: rest => return (entries, rest)
    | cs =>
      let (path, v, rest) ← assignment? (skipFiller false) value cs
      let entries ← entries.assign v path
      match ← skipFiller false rest with
      | ',' :: rest => braces? value fuel entries rest
      | '}' :: rest => return (entries, rest)
      | _ => none

/-- Reads a value without brackets or braces. -/
def flat? : List Char → Option (Value × List Char)
  | '"' :: cs => (text? ('"' :: cs)).map fun (text, rest) => (.text text, rest)
  | '\'' :: cs => (text? ('\'' :: cs)).map fun (text, rest) => (.text text, rest)
  | cs => scalar? cs

/-- Reads a value with at most so many brackets and braces around each other. -/
def value? : Nat → List Char → Option (Value × List Char)
  | depth + 1, '[' :: cs =>
    (items? (value? depth) (cs.length + 1) cs).map fun (items, rest) => (.array items, rest)
  | depth + 1, '{' :: cs =>
    (braces? (value? depth) (cs.length + 1) [] cs).map fun (entries, rest) =>
      (.table .braces entries, rest)
  | _, cs => flat? cs

/-! ## Lines -/

/-- What a line of a document says. -/
inductive Statement where
  | assign (path : List String) (value : Value)
  | header (path : List String)
  /-- A header in double brackets. -/
  | nextHeader (path : List String)

/-- Reads one line that says something. -/
def statement? : List Char → Option (Statement × List Char)
  | '[' :: '[' :: cs => do
    let (path, rest) ← path? cs
    let rest ← expect? ']' (← expect? ']' rest)
    return (.nextHeader path, ← endLine false rest)
  | '[' :: cs => do
    let (path, rest) ← path? cs
    return (.header path, ← endLine false (← expect? ']' rest))
  | cs => do
    let (path, v, rest) ← assignment? (fun rest => some (skipSpaces rest)) (value? maxDepth) cs
    return (.assign path v, ← endLine false rest)

/-- Reads the lines of a document. -/
def statements? : Nat → List Char → Option (List Statement)
  | 0, _ => none
  | fuel + 1, cs => do
    match ← skipFiller false cs with
    | [] => return []
    | cs =>
      let (statement, rest) ← statement? cs
      return statement :: (← statements? fuel rest)

/-! ## Tables -/

/-- A document while it is read: its entries, and the header that the lines stand under. -/
structure Draft where
  header : List String
  entries : Entries

namespace Draft

/-- Changes the table that holds the last key of a path. -/
def atLast (draft : Draft) (path : List String) (change : String → Entries → Option Entries) :
    Option Entries := do
  let key ← path.getLast?
  draft.entries.atHeader (change key) path.dropLast

/-- The draft after one more line. -/
def add (draft : Draft) : Statement → Option Draft
  | .assign path value => do
    let entries ← draft.entries.atHeader (Entries.assign value path) draft.header
    return { draft with entries := entries }
  | .header path => do
    return ⟨path, ← draft.atLast path Entries.openTable⟩
  | .nextHeader path => do
    return ⟨path, ← draft.atLast path Entries.openNext⟩

end Draft

/-- A byte order mark at the beginning is not part of a document. -/
def skipMark : List Char → List Char
  | '\ufeff' :: cs => cs
  | cs => cs

/-- Reads a document. -/
def document? (text : String) : Option Entries := do
  let cs := skipMark text.toList
  let statements ← statements? (cs.length + 1) cs
  let draft ← statements.foldlM Draft.add ⟨[], []⟩
  return draft.entries

end Groovebox.Toml
