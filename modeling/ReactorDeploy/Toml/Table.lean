import ReactorDeploy.Data

/-!
# Tables under construction

The statements of a TOML document build one table. What a later statement may still do to a table
depends on how that table came about: under its own header, as the parent of another header's
table, or by a dotted key. So tables under construction remember their origin, and lose it when the
document is complete.
-/

namespace ReactorDeploy.Toml

/-- How a table came about. -/
inductive Origin where
  /-- It has a header of its own. -/
  | header
  /-- A header names a table below it. -/
  | parent
  /-- A dotted key leads through it. -/
  | dotted
  deriving DecidableEq, Repr

/-- What a key of a table under construction holds. -/
inductive Node where
  /-- A value, which nothing can be added to. -/
  | value (d : Data)
  | table (origin : Origin) (entries : List (String × Node))
  /-- The tables under one repeated header, the latest one last. -/
  | series (tables : List (List (String × Node)))
  deriving Inhabited

/-- The entries of a table under construction. -/
abbrev Entries := List (String × Node)

namespace Entries

/-- The entries with `key` holding `node`, at its old place if it has one. -/
def put (es : Entries) (key : String) (node : Node) : Entries :=
  match es with
  | [] => [(key, node)]
  | (k, n) :: rest => if k = key then (k, node) :: rest else (k, n) :: put rest key node

/-- Changes the table at `path` by `f`, which is told the origin of that table. Tables missing on
the way are made, with origin `made`. A value on the way stops it, and so does a table with its own
header when the path is that of a dotted key. A series stands for its latest table. -/
def updateAt (made : Origin) (f : Origin → Entries → Option Entries) :
    List String → Origin → Entries → Option Entries
  | [], origin, es => f origin es
  | key :: path, _, es =>
    match es.lookup key with
    | none => do
      let sub ← updateAt made f path made []
      return put es key (.table made sub)
    | some (.value _) => none
    | some (.table origin sub) =>
      if made = .dotted ∧ origin = .header then none
      else do
        let sub ← updateAt made f path origin sub
        return put es key (.table origin sub)
    | some (.series tables) => do
      let latest ← tables.getLast?
      let sub ← updateAt made f path .header latest
      return put es key (.series (tables.dropLast ++ [sub]))

/-- Adds a key with its value below a table. The tables that the parents of the key name have to
be made by dotted keys, and the key must not be there yet. -/
def addPair (es : Entries) (parents : List String) (key : String) (d : Data) : Option Entries :=
  updateAt .dotted
    (fun origin es =>
      if !parents.isEmpty && origin != .dotted then none
      else if (es.lookup key).isSome then none
      else some (es ++ [(key, .value d)]))
    parents .header es

end Entries

mutual

/-- The data of a node, origins forgotten. -/
def Node.toData : Node → Data
  | .value d => d
  | .table _ entries => .table (Entries.toData entries)
  | .series tables => .list (Entries.seriesToData tables)

/-- The data of entries, origins forgotten. -/
def Entries.toData : List (String × Node) → List (String × Data)
  | [] => []
  | (key, node) :: rest => (key, node.toData) :: Entries.toData rest

/-- The data of the tables of a series, origins forgotten. -/
def Entries.seriesToData : List (List (String × Node)) → List Data
  | [] => []
  | entries :: rest => .table (Entries.toData entries) :: Entries.seriesToData rest

end

/-- A key, with the keys of the tables that lead to it. -/
structure Key where
  parents : List String
  name : String
  deriving DecidableEq, Repr, Inhabited

/-- The header of a section. -/
inductive Header where
  /-- A table that is named once. -/
  | table (key : Key)
  /-- One more table of a series. -/
  | element (key : Key)
  deriving DecidableEq, Repr

/-- A header and the pairs of the table that it opens. -/
structure Section where
  header : Header
  pairs : List (Key × Data)

namespace Entries

/-- Adds pairs one after the other. -/
def addPairs (es : Entries) (pairs : List (Key × Data)) : Option Entries :=
  pairs.foldlM (fun es (key, d) => es.addPair key.parents key.name d) es

/-- Adds a section under its header. A table may be there already as the parent of others, whose
entries it then keeps; a series may be there already as one. -/
def addSection (es : Entries) (s : Section) : Option Entries :=
  match s.header with
  | .table key =>
    updateAt .parent
      (fun _ es => do
        let start : Entries ← match es.lookup key.name with
          | none => some []
          | some (.table .parent entries) => some entries
          | some _ => none
        let entries ← addPairs start s.pairs
        return es.put key.name (.table .header entries))
      key.parents .header es
  | .element key =>
    updateAt .parent
      (fun _ es => do
        let earlier ← match es.lookup key.name with
          | none => some []
          | some (.series tables) => some tables
          | some _ => none
        let entries ← addPairs [] s.pairs
        return es.put key.name (.series (earlier ++ [entries])))
      key.parents .header es

end Entries

/-- A document: the pairs before the first header, and the sections. -/
structure Document where
  root : List (Key × Data)
  sections : List Section

/-- The table that a document builds, if no statement of it contradicts another. -/
def Document.toData? (doc : Document) : Option Data := do
  let es ← Entries.addPairs [] doc.root
  let es ← doc.sections.foldlM Entries.addSection es
  return .table (Entries.toData es)

/-- The data of an inline table, if none of its pairs contradicts another. -/
def inlineTable? (pairs : List (Key × Data)) : Option Data :=
  (Entries.addPairs [] pairs).map fun es => .table (Entries.toData es)

end ReactorDeploy.Toml
