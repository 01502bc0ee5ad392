import TypedTemplate.Moment
import TypedTemplate.Table

/-!
TOML documents. A document is read line by line into a table whose parts remember how
they came to be, because a table may be extended only in the way it was begun: a header
opens a table once, and dotted keys extend only tables that dotted keys have made.
-/
namespace TypedTemplate

inductive Toml where
  | text (value : String)
  | bool (value : Bool)
  | integer (value : Int)
  | number (value : Float)
  | moment (value : Moment)
  | list (items : List Toml)
  | table (entries : List (String × Toml))
  deriving Inhabited

namespace Toml

/-- How a table came to be. -/
inductive Origin where
  /-- By a header of its own. -/
  | header
  /-- By a header of a table inside it. -/
  | nested
  /-- By a dotted key. -/
  | dotted
  deriving DecidableEq, Repr

/-- A part of a document that is being read. -/
inductive Node where
  | leaf (value : Toml)
  | table (origin : Origin) (entries : List (String × Node))

abbrev Entries := Table String Node

namespace Node

mutual

def toToml : Node → Toml
  | leaf value => value
  | table _ entries => .table (entriesToToml entries)

def entriesToToml : List (String × Node) → List (String × Toml)
  | [] => []
  | (key, node) :: rest => (key, toToml node) :: entriesToToml rest

end

end Node

namespace Entries

/-- The part with a key. -/
def find? (entries : Entries) (key : String) : Option Node := Table.find? entries key

/-- Puts a part under a key, in the place of the part that has the key. -/
def put (entries : Entries) (key : String) (node : Node) : Entries :=
  Table.update entries key fun _ => node

/-- Adds a value under a dotted key. No key is given twice. -/
def insert (entries : Entries) (path : List String) (value : Toml) : Option Entries :=
  match path with
  | [] => none
  | [key] => if (entries.find? key).isSome then none else some (entries.put key (.leaf value))
  | key :: rest =>
    match entries.find? key with
    | none => (insert [] rest value).map fun inner => entries.put key (.table .dotted inner)
    | some (.table .dotted inner) =>
      (insert inner rest value).map fun inner => entries.put key (.table .dotted inner)
    | some _ => none

/-- Opens the table with a dotted name, which must not have been opened before. -/
def openTable (entries : Entries) (path : List String) : Option Entries :=
  match path with
  | [] => none
  | [key] =>
    match entries.find? key with
    | none => some (entries.put key (.table .header []))
    | some (.table .nested inner) => some (entries.put key (.table .header inner))
    | some _ => none
  | key :: rest =>
    match entries.find? key with
    | none => (openTable [] rest).map fun inner => entries.put key (.table .nested inner)
    | some (.table origin inner) =>
      (openTable inner rest).map fun inner => entries.put key (.table origin inner)
    | some (.leaf _) => none

/-- Adds a value under a dotted key of the table with a dotted name. -/
def insertUnder (entries : Entries) (name path : List String) (value : Toml) : Option Entries :=
  match name with
  | [] => entries.insert path value
  | key :: rest =>
    match entries.find? key with
    | some (.table origin inner) =>
      (insertUnder inner rest path value).map fun inner => entries.put key (.table origin inner)
    | _ => none

end Entries

/-- A line of a document that says something. -/
inductive Line where
  | header (name : List String)
  | entry (path : List String) (value : Toml)

/-- The entries of a document and the name of the table that its lines are for. -/
structure Draft where
  entries : Entries := []
  current : List String := []

def Draft.add (draft : Draft) : Line → Option Draft
  | .header name => (draft.entries.openTable name).map fun entries => ⟨entries, name⟩
  | .entry path value =>
    (draft.entries.insertUnder draft.current path value).map fun entries => { draft with entries }

/-- The entries of the document with these lines, unless they contradict each other. -/
def ofLines (lines : List Line) : Option (List (String × Toml)) :=
  (lines.foldlM Draft.add {}).map fun draft => Node.entriesToToml draft.entries

end Toml

end TypedTemplate
