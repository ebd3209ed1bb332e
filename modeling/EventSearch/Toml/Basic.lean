import EventSearch.Double.Basic

/-!
# TOML documents

The values of the TOML format, and the table that the statements of a document add up to.
A table remembers how it came about, because only some ways may be followed by others.
-/
namespace EventSearch

inductive Toml where
  | string (s : String)
  | integer (n : Int)
  | float (d : Double)
  | boolean (b : Bool)
  | dateTime (text : String)
  | array (items : List Toml)
  | table (entries : List (String × Toml))
deriving Repr

namespace Toml

/-- How a table came about: by its own header, as a step to a table below it, or by a dotted
key. -/
inductive Origin where
  | header | step | dotted
deriving DecidableEq, Repr

/-- What a key stands for while a document is read. A list of tables is never empty, and its last
table is the one that is being written. -/
inductive Entry where
  | value (v : Toml)
  | table (origin : Origin) (entries : List (String × Entry))
  | tables (earlier : List (List (String × Entry))) (last : List (String × Entry))
deriving Repr

/-- Entries of a table in the order in which they were first written. -/
abbrev Entries := List (String × Entry)

def lookup (key : String) (entries : Entries) : Option Entry :=
  (entries.find? fun entry => entry.1 == key).map Prod.snd

/-- Puts an entry in the place of the one with its key, or at the end. -/
def put (key : String) (entry : Entry) : Entries → Entries
  | [] => [(key, entry)]
  | (k, e) :: rest => if k = key then (k, entry) :: rest else (k, e) :: put key entry rest

/-- Changes the table that a path leads to. Tables on the way are made when they are missing.
A dotted key does not enter tables that have a header, and nothing enters a value. -/
def descend (made : Origin) (change : Origin → Entries → Option Entries) :
    List String → Origin → Entries → Option Entries
  | [], origin, entries => change origin entries
  | key :: path, _, entries =>
      match lookup key entries with
      | none => do
          let inner ← descend made change path made []
          some (put key (.table made inner) entries)
      | some (.table origin inner) =>
          if made = .dotted ∧ origin = .header then none
          else do
            let inner ← descend made change path origin inner
            some (put key (.table origin inner) entries)
      | some (.tables earlier last) => do
          let last ← descend made change path .header last
          some (put key (.tables earlier last) entries)
      | some (.value _) => none

/-- The table of one key in the table that the path before it leads to. -/
def atParent (change : String → Entries → Option Entries) (path : List String)
    (root : Entries) : Option Entries :=
  match path.getLast? with
  | none => none
  | some key => descend .step (fun _ entries => change key entries) path.dropLast .header root

/-- A table header opens a new table, or one that was only a step so far. -/
def openTable : List String → Entries → Option Entries :=
  atParent fun key entries =>
    match lookup key entries with
    | none => some (put key (.table .header []) entries)
    | some (.table .step inner) => some (put key (.table .header inner) entries)
    | some _ => none

/-- A header in double brackets opens a further table of a list. -/
def openListed : List String → Entries → Option Entries :=
  atParent fun key entries =>
    match lookup key entries with
    | none => some (put key (.tables [] []) entries)
    | some (.tables earlier last) => some (put key (.tables (earlier ++ [last]) []) entries)
    | some _ => none

/-- Adds a value under a new key. A dotted key leads to a table that dotted keys have made. -/
def addValue (path : List String) (v : Toml) (entries : Entries) : Option Entries :=
  match path.getLast? with
  | none => none
  | some key =>
      let add (origin : Origin) (entries : Entries) : Option Entries :=
        if !path.dropLast.isEmpty && origin != .dotted then none
        else match lookup key entries with
          | none => some (put key (.value v) entries)
          | some _ => none
      descend .dotted add path.dropLast .header entries

/-- Changes the table of the last header, which the path leads to. -/
def inTable (path : List String) (change : Entries → Option Entries) (root : Entries) :
    Option Entries :=
  descend .step (fun _ entries => change entries) path .header root

mutual

def Entry.finish : Entry → Toml
  | .value v => v
  | .table _ entries => .table (finishEntries entries)
  | .tables earlier last => .array (finishTables earlier ++ [.table (finishEntries last)])

def finishEntries : List (String × Entry) → List (String × Toml)
  | [] => []
  | (key, entry) :: rest => (key, entry.finish) :: finishEntries rest

def finishTables : List (List (String × Entry)) → List Toml
  | [] => []
  | entries :: rest => .table (finishEntries entries) :: finishTables rest

end

/-- The table of the given keys and values, unless they collide. -/
def ofPairs (pairs : List (List String × Toml)) : Option Toml := do
  let entries ← pairs.foldlM (fun entries pair => addValue pair.1 pair.2 entries) []
  some (.table (finishEntries entries))

/-- One statement of a document. -/
inductive Statement where
  | header (path : List String)
  | listHeader (path : List String)
  | pair (path : List String) (v : Toml)
deriving Repr

/-- The root table and the path of the table that is being written. -/
structure Draft where
  root : Entries := []
  current : List String := []

def Draft.add (draft : Draft) : Statement → Option Draft
  | .header path => do some ⟨← openTable path draft.root, path⟩
  | .listHeader path => do some ⟨← openListed path draft.root, path⟩
  | .pair path v => do
      some { draft with root := ← inTable draft.current (addValue path v) draft.root }

/-- The root table that the statements add up to. -/
def ofStatements (statements : List Statement) : Option Toml := do
  let draft ← statements.foldlM Draft.add {}
  some (.table (finishEntries draft.root))

end Toml

end EventSearch
