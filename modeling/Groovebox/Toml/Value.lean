/-! # Values of a settings document

A document in TOML is a table of named values.  While it is read, each table remembers how it came
about, because that decides whether later lines may add to it.
-/

namespace Groovebox.Toml

/-- How a table came about. -/
inductive Origin where
  /-- Written in braces; nothing may be added to it. -/
  | braces
  /-- Named by a header of a table inside it; it may still get a header of its own. -/
  | implied
  /-- Named by its own header. -/
  | header
  /-- Named by a dotted key; further dotted keys may add to it. -/
  | dotted
deriving DecidableEq

/-- A value of a document. -/
inductive Value where
  | text (text : String)
  | integer (value : Int)
  | number (value : Float)
  /-- A number that is too large for its type, which matters only where it is looked at. -/
  | overflow
  | boolean (value : Bool)
  /-- A date or a time; which one it is does not matter to any setting. -/
  | moment
  | array (items : List Value)
  | table (origin : Origin) (entries : List (String × Value))
  /-- Tables with the same header, one for each time that it is written. -/
  | tables (tables : List (List (String × Value)))

/-- The entries of a table. -/
abbrev Entries := List (String × Value)

/-! ## Passing over values -/

mutual

/-- Whether every number inside a value fits its type. -/
def Value.fits : Value → Bool
  | .overflow => false
  | .array items => Value.allFit items
  | .table _ entries => Value.entriesFit entries
  | .tables all => Value.tablesFit all
  | _ => true

/-- Whether every number inside some values fits its type. -/
def Value.allFit : List Value → Bool
  | [] => true
  | value :: rest => value.fits && Value.allFit rest

/-- Whether every number inside the entries of a table fits its type. -/
def Value.entriesFit : List (String × Value) → Bool
  | [] => true
  | (_, value) :: rest => value.fits && Value.entriesFit rest

/-- Whether every number inside some tables fits its type. -/
def Value.tablesFit : List (List (String × Value)) → Bool
  | [] => true
  | entries :: rest => Value.entriesFit entries && Value.tablesFit rest

end

/-- Some values fit when each of them does. -/
theorem Value.allFit_eq_all (values : List Value) : Value.allFit values = values.all Value.fits := by
  induction values with
  | nil => rfl
  | cons value rest ih => simp [Value.allFit, ih]

/-- The entries of a table fit when each value does, whatever the keys are. -/
theorem Value.entriesFit_eq_all (entries : Entries) :
    Value.entriesFit entries = entries.all fun entry => entry.2.fits := by
  induction entries with
  | nil => rfl
  | cons entry rest ih => simp [Value.entriesFit, ih]

/-! ## Adding to tables -/

namespace Entries

/-- The value of a key. -/
def find? (entries : Entries) (key : String) : Option Value :=
  List.lookup key entries

/-- Changes the value of a key, or adds it at the end; fails if the change does. -/
def alter (key : String) (change : Option Value → Option Value) : Entries → Option Entries
  | [] => do return [(key, ← change none)]
  | (name, value) :: rest =>
    if name = key then do return (name, ← change (some value)) :: rest
    else do return (name, value) :: (← alter key change rest)

/-- Changes the table that a header path leads to.  Tables on the way that are not there yet are
implied; of tables with the same header the last one is meant. -/
def atHeader (change : Entries → Option Entries) : List String → Entries → Option Entries
  | [], entries => change entries
  | key :: path, entries => alter key (fun
      | none => do return .table .implied (← atHeader change path [])
      | some (.table .braces _) => none
      | some (.table origin inner) => do return .table origin (← atHeader change path inner)
      | some (.tables all) => do
        let last ← all.getLast?
        return .tables (all.dropLast ++ [← atHeader change path last])
      | some _ => none) entries

/-- A header begins a table that has none yet. -/
def openTable (key : String) : Entries → Option Entries :=
  alter key fun
    | none => some (.table .header [])
    | some (.table .implied entries) => some (.table .header entries)
    | some _ => none

/-- A double header begins one more of the tables with this header. -/
def openNext (key : String) : Entries → Option Entries :=
  alter key fun
    | none => some (.tables [[]])
    | some (.tables all) => some (.tables (all ++ [[]]))
    | some _ => none

/-- Gives a dotted key its value; a key has one value only.  The table that gets it has to come from
dotted keys itself; on the way there a path may also lead through implied tables and through the
last of the tables with the same header. -/
def assign (value : Value) : List String → Entries → Option Entries
  | [], _ => none
  | [key], entries => alter key (fun
      | none => some value
      | some _ => none) entries
  | key :: next :: path, entries => alter key (fun
      | none => do return .table .dotted (← assign value (next :: path) [])
      | some (.table .dotted inner) => do
        return .table .dotted (← assign value (next :: path) inner)
      | some (.table .implied inner) =>
        if path.isEmpty then none
        else do return .table .implied (← assign value (next :: path) inner)
      | some (.tables all) =>
        if path.isEmpty then none
        else do
          let last ← all.getLast?
          return .tables (all.dropLast ++ [← assign value (next :: path) last])
      | some _ => none) entries

end Entries

end Groovebox.Toml
