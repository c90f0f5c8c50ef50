import ScopedStore.Json.Basic

/-!
Tables of a TOML document while it is being read. How a table came to be decides what may still be
added to it: headers may complete a table that only other headers imply, and dotted keys may
extend tables that dotted keys made.
-/

namespace ScopedStore.Toml

inductive Origin where
  | implied
  | dotted
  | header
  deriving DecidableEq

/-- `tables` is an array of tables, the last row first. -/
inductive Node where
  | value (document : Json)
  | table (origin : Origin) (fields : List (String × Node))
  | tables (rows : List (List (String × Node)))

abbrev Table := List (String × Node)

namespace Node

mutual

def toJson : Node → Json
  | value document => document
  | table _ fields => .object (fieldsToJson fields)
  | tables rows => .array (rowsToJson rows).reverse

def fieldsToJson : List (String × Node) → List (Option String × Json)
  | [] => []
  | (name, node) :: rest => (some name, node.toJson) :: fieldsToJson rest

def rowsToJson : List (List (String × Node)) → List Json
  | [] => []
  | row :: rest => .object (fieldsToJson row) :: rowsToJson rest

end

end Node

namespace Table

def toJson (table : Table) : Json := .object (Node.fieldsToJson table)

/-- Puts a node under a name, in place of the one that is there. -/
def put (name : String) (node : Node) (table : Table) : Table :=
  if table.any (·.1 = name) then
    table.map fun field => if field.1 = name then (name, node) else field
  else table ++ [(name, node)]

/-- Sets a key that dotted names lead to. The tables on the way must not have a header of their
own, and the last of them must come from dotted names too. -/
def insert : List String → String → Json → Table → Option Table
  | [], key, document, table =>
    if (table.lookup key).isSome then none else some (table ++ [(key, .value document)])
  | name :: names, key, document, table =>
    match table.lookup name with
    | none => do
      return table ++ [(name, .table .dotted (← insert names key document []))]
    | some (.table origin inner) =>
      if origin = .header ∨ (names = [] ∧ origin ≠ .dotted) then none
      else do return put name (.table origin (← insert names key document inner)) table
    | some (.tables (row :: rows)) =>
      if names = [] then none
      else do return put name (.tables ((← insert names key document row) :: rows)) table
    | some _ => none

/-- Goes down to where a header points and changes the table above its last name. Tables on the
way that are not there are implied. -/
def descend (change : String → Table → Option Table) : List String → Table → Option Table
  | [], _ => none
  | [name], table => change name table
  | name :: names, table =>
    match table.lookup name with
    | none => do return table ++ [(name, .table .implied (← descend change names []))]
    | some (.table origin inner) => do
      return put name (.table origin (← descend change names inner)) table
    | some (.tables (row :: rows)) => do
      return put name (.tables ((← descend change names row) :: rows)) table
    | some _ => none

/-- Opens the table of a header. -/
def openTable : List String → Table → Option Table :=
  descend fun name table =>
    match table.lookup name with
    | none => some (table ++ [(name, .table .header [])])
    | some (.table .implied inner) => some (put name (.table .header inner) table)
    | some _ => none

/-- Adds a row to the array of tables of a header. -/
def openRow : List String → Table → Option Table :=
  descend fun name table =>
    match table.lookup name with
    | none => some (table ++ [(name, .tables [[]])])
    | some (.tables rows) => some (put name (.tables ([] :: rows)) table)
    | some _ => none

/-- Changes the table that the last header opened. -/
def update (change : Table → Option Table) : List String → Table → Option Table
  | [], table => change table
  | name :: names, table =>
    match table.lookup name with
    | some (.table origin inner) => do
      return put name (.table origin (← update change names inner)) table
    | some (.tables (row :: rows)) => do
      return put name (.tables ((← update change names row) :: rows)) table
    | _ => none

end Table

end ScopedStore.Toml
