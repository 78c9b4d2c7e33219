import ReactorDeploy.Toml.Quoted
import ReactorDeploy.Toml.Table

/-!
# Writing TOML

Documents are written block by block, a block being a header and the pairs below it, with an empty
line before every header but the first. Keys are written bare, so only keys of letters, digits,
dashes and underscores belong into a block.
-/

namespace ReactorDeploy.Toml

/-- A value that is written in the place of a pair. -/
inductive Plain where
  | text (s : String)
  | number (n : Nat)
  | truth (b : Bool)
  | texts (items : List String)
  deriving DecidableEq, Repr

/-- The data that a value stands for. -/
def Plain.toData : Plain → Data
  | .text s => .string s
  | .number n => .integer n
  | .truth b => .boolean b
  | .texts items => .list (items.map .string)

/-- The written form of a value. A list of two items or more has one on each line. -/
def Plain.render : Plain → String
  | .text s => Quoted.quote s
  | .number n => toString n
  | .truth b => if b then "true" else "false"
  | .texts [] => "[]"
  | .texts [s] => "[" ++ Quoted.quote s ++ "]"
  | .texts items =>
    "[\n" ++ String.join (items.map fun s => "    " ++ Quoted.quote s ++ ",\n") ++ "]"

/-- A header and the pairs below it. A block without a header can only come first. -/
structure Block where
  header : Option Header
  pairs : List (String × Plain)
  deriving DecidableEq, Repr

/-- A key with dots between its parts. -/
def Key.render (key : Key) : String :=
  ".".intercalate (key.parents ++ [key.name])

/-- The written form of a header. -/
def Header.render : Header → String
  | .table key => "[" ++ key.render ++ "]\n"
  | .element key => "[[" ++ key.render ++ "]]\n"

/-- The written form of a pair. -/
def renderPair (pair : String × Plain) : String :=
  pair.1 ++ " = " ++ pair.2.render ++ "\n"

/-- The written form of a block. -/
def Block.render (b : Block) : String :=
  (b.header.map Header.render).getD "" ++ String.join (b.pairs.map renderPair)

/-- The written form of a document. -/
def renderBlocks (blocks : List Block) : String :=
  "\n".intercalate (blocks.map Block.render)

end ReactorDeploy.Toml
