/-!
# TOML documents

Values of configuration files, and how tables come about: a table is written in braces, opened by a
header of its own, implied by the header of a table inside it, or made by a key with dots. What came
about in one way can be added to only in some other ways, so tables remember their origin.
-/

namespace SigningKeys.Toml

/-- How a table came about. -/
inductive Origin where
  | braces
  | header
  | implied
  | dotted
  deriving DecidableEq

/-- A value. Floating-point numbers, dates and times are kept as they were written. -/
inductive Value where
  | text (content : String)
  | integer (n : Int)
  | boolean (value : Bool)
  | float (written : String)
  | moment (written : String)
  | array (items : List Value)
  | table (origin : Origin) (entries : List (String × Value))
  /-- Tables opened by headers in double brackets; only the last one can be added to. -/
  | tables (earlier : List (List (String × Value))) (last : List (String × Value))

/-- The entries of a table; their keys are distinct. -/
abbrev Entries := List (String × Value)

namespace Entries

/-- The value under a key. -/
def find? (entries : Entries) (key : String) : Option Value := entries.lookup key

/-- Puts a value in the place of the one under a key. -/
def replace (entries : Entries) (key : String) (value : Value) : Entries :=
  entries.map fun entry ↦ if entry.1 = key then (key, value) else entry

/-- Adds an entry under a new key. -/
def add (entries : Entries) (key : String) (value : Value) : Entries := entries ++ [(key, value)]

/-- Adds a value under a key with dots. The tables on the way are made if they are not there; the
table that gets the value must have been made by keys with dots. -/
def insert (value : Value) : List String → Entries → Option Entries
  | [], _ => none
  | [key], entries => if (entries.find? key).isSome then none else some (entries.add key value)
  | key :: next :: path, entries =>
      match entries.find? key with
      | none =>
          (insert value (next :: path) []).map fun inner ↦ entries.add key (.table .dotted inner)
      | some (.table .dotted inner) =>
          (insert value (next :: path) inner).map fun inner ↦
            entries.replace key (.table .dotted inner)
      | some (.table .implied inner) =>
          if path = [] then none
          else (insert value (next :: path) inner).map fun inner ↦
            entries.replace key (.table .implied inner)
      | some (.tables earlier last) =>
          if path = [] then none
          else (insert value (next :: path) last).map fun last ↦
            entries.replace key (.tables earlier last)
      | some _ => none

/-- Changes the table at the end of a path of headers. The tables on the way are implied if they are
not there. -/
def within (change : Entries → Option Entries) : List String → Entries → Option Entries
  | [], entries => change entries
  | key :: path, entries =>
      match entries.find? key with
      | none => (within change path []).map fun inner ↦ entries.add key (.table .implied inner)
      | some (.table .braces _) => none
      | some (.table origin inner) =>
          (within change path inner).map fun inner ↦ entries.replace key (.table origin inner)
      | some (.tables earlier last) =>
          (within change path last).map fun last ↦ entries.replace key (.tables earlier last)
      | some _ => none

/-- Opens the table under a key by its header, which must not have been done before. -/
def openTable (key : String) (entries : Entries) : Option Entries :=
  match entries.find? key with
  | none => some (entries.add key (.table .header []))
  | some (.table .implied inner) => some (entries.replace key (.table .header inner))
  | some _ => none

/-- Opens one more of the tables under a key. -/
def openElement (key : String) (entries : Entries) : Option Entries :=
  match entries.find? key with
  | none => some (entries.add key (.tables [] []))
  | some (.tables earlier last) => some (entries.replace key (.tables (earlier ++ [last]) []))
  | some _ => none

/-- Performs an opening at the end of a path, which has at least one key. -/
def openAt (opening : String → Entries → Option Entries) (path : List String) (entries : Entries) :
    Option Entries := do
  let key ← path.getLast?
  within (opening key) path.dropLast entries

end Entries

end SigningKeys.Toml
