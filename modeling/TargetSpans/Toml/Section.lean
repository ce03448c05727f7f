import TargetSpans.Toml.Value

/-!
# Tables under construction

A TOML text builds its tables piece by piece: a header opens a table, a dotted key adds to one, and
a double header adds a table to an array of tables.  What may still be added to a table depends on
how it came to be, and a table that is written as a value is closed from the start.
-/

namespace TargetSpans.Toml

/-- How a table came to be. -/
inductive Origin where
  /-- By a header of a table below it. -/
  | implied
  /-- By a dotted key. -/
  | dotted
  /-- By a header of its own. -/
  | header
  deriving DecidableEq, Repr

/-- What a key stands for in a table under construction. -/
inductive Section where
  | value (v : Value)
  | table (origin : Origin) (entries : List (String × Section))
  | tables (elements : List (List (String × Section)))

/-- The entries of a table under construction. -/
abbrev Sections := List (String × Section)

namespace Sections

def get? (t : Sections) (key : String) : Option Section :=
  (t.find? fun e => e.1 = key).map Prod.snd

/-- The entries with a key replaced in its place or added at the end. -/
def set (t : Sections) (key : String) (s : Section) : Sections :=
  if t.any fun e => e.1 = key then t.map fun e => if e.1 = key then (key, s) else e
  else t ++ [(key, s)]

/-- Change the table at the end of a path of headers.  Tables that are missing on the way are
implied by the header; of an array of tables the last element is meant. -/
def modifyAt (change : Sections → Option Sections) : List String → Sections → Option Sections
  | [], t => change t
  | key :: path, t => do
      let s ← match t.get? key with
        | none => (modifyAt change path []).map (Section.table .implied)
        | some (.table origin entries) =>
            (modifyAt change path entries).map (Section.table origin)
        | some (.tables elements) =>
            elements.getLast?.bind fun last =>
              (modifyAt change path last).map fun changed =>
                Section.tables (elements.dropLast ++ [changed])
        | some (.value _) => none
      return t.set key s

/-- Open a table by its header.  It may have been implied before, but nothing else. -/
def openTable (key : String) (t : Sections) : Option Sections :=
  match t.get? key with
  | none => some (t.set key (.table .header []))
  | some (.table .implied entries) => some (t.set key (.table .header entries))
  | some _ => none

def addTable (key : String) (t : Sections) : Option Sections :=
  match t.get? key with
  | none => some (t.set key (.tables [[]]))
  | some (.tables elements) => some (t.set key (.tables (elements ++ [[]])))
  | some _ => none

/-- Give a value to a key that has none yet. -/
def assignKey (key : String) (v : Value) (t : Sections) : Option Sections :=
  match t.get? key with
  | none => some (t.set key (.value v))
  | some _ => none

/-- Give a value to a dotted key.  On the way it may pass tables that no header has opened, and the
table that holds the value must itself come from a dotted key. -/
def assign (v : Value) (key : String) : List String → Sections → Option Sections
  | [], t => assignKey key v t
  | first :: path, t => do
      let s ← match t.get? first with
        | none => (assign v key path []).map (Section.table .dotted)
        | some (.table origin entries) =>
            if origin = .header ∨ (path.isEmpty ∧ origin = .implied) then none
            else (assign v key path entries).map (Section.table origin)
        | some (.tables elements) =>
            if path.isEmpty then none
            else
              elements.getLast?.bind fun last =>
                (assign v key path last).map fun changed =>
                  Section.tables (elements.dropLast ++ [changed])
        | some (.value _) => none
      return t.set first s

end Sections

mutual

/-- The value of a finished section. -/
def Section.finish : Section → Value
  | .value v => v
  | .table _ entries => .table (finishEntries entries)
  | .tables elements => .array (finishTables elements)

/-- The entries of a finished table. -/
def finishEntries : List (String × Section) → Table
  | [] => []
  | (key, s) :: rest => (key, s.finish) :: finishEntries rest

/-- The elements of a finished array of tables. -/
def finishTables : List (List (String × Section)) → List Value
  | [] => []
  | entries :: rest => .table (finishEntries entries) :: finishTables rest

end

end TargetSpans.Toml
