/-!
# Data trees

What a structured document holds once its syntax is read: tables, lists and scalars. Floats and
dates occur in documents but nothing here ever uses their value, so a tree keeps only that one was
there.

Records are read from data trees under one of two conventions, since the two document formats that
manifests come in differ in what they accept in the place of a record or of a keyword.
-/

namespace ReactorDeploy

/-- A structured document, or a part of one. -/
inductive Data where
  | null
  | boolean (b : Bool)
  | integer (n : Int)
  | float
  | dateTime
  | string (s : String)
  | list (items : List Data)
  | table (entries : List (String × Data))
  deriving Repr, Inhabited

namespace Data

/-- What a document format accepts beside the usual shapes. -/
structure Convention where
  /-- Whether a list that stands for a record may go on after the last field. -/
  acceptsSurplus : Bool
  /-- Whether a keyword may be the key of a table whose one value is the given one. -/
  acceptsPayload : Data → Bool

/-- The convention of TOML: surplus items are ignored, and the value beside a keyword is an empty
list or table. -/
def Convention.toml : Convention where
  acceptsSurplus := true
  acceptsPayload
    | .list [] | .table [] => true
    | _ => false

/-- The convention of JSON: a list is as long as the record at most, and the value beside a
keyword is null. -/
def Convention.json : Convention where
  acceptsSurplus := false
  acceptsPayload
    | .null => true
    | _ => false

/-- The look-up of a record's fields. A record is a table with the fields as keys, or a list of
their values in order; other keys of the table are ignored, and a date counts as a table without
any of the keys. -/
def record? (convention : Convention) (fields : List String) : Data → Option (String → Option Data)
  | .table entries => some fun field => entries.lookup field
  | .list items =>
    if !convention.acceptsSurplus && fields.length < items.length then none
    else some fun field => (fields.zip items).lookup field
  | .dateTime => some fun _ => none
  | _ => none

/-- The word that the data is, if it is a string or a table that has it for its only key. -/
def keyword? (convention : Convention) : Data → Option String
  | .string s => some s
  | .table [(key, payload)] => if convention.acceptsPayload payload then some key else none
  | _ => none

/-- The text that the data is. -/
def string? : Data → Option String
  | .string s => some s
  | _ => none

/-- The truth value that the data is. -/
def boolean? : Data → Option Bool
  | .boolean b => some b
  | _ => none

/-- The natural number below 2^64 that the data is. -/
def word? : Data → Option UInt64
  | .integer n => if 0 ≤ n ∧ n < 0x10000000000000000 then some (UInt64.ofNat n.toNat) else none
  | _ => none

/-- The items of the list that the data is. -/
def list? : Data → Option (List Data)
  | .list items => some items
  | _ => none

/-- Reads data that null stands for the absence of. -/
def nullable? {α : Type} (read : Data → Option α) : Data → Option (Option α)
  | .null => some none
  | d => (read d).map some

/-- Reads a field that may be missing, with a default for that case. A field that is there has to
be readable. -/
def fieldOr {α : Type} (default : α) (read : Data → Option α) : Option Data → Option α
  | none => some default
  | some d => read d

end Data

end ReactorDeploy
