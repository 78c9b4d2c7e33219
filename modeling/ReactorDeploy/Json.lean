/-!
# Writing JSON

The documents that are printed as JSON, in the layout for people: two blanks of indentation a
level, every item on its own line, and nothing between the brackets of an empty list or object.
-/

namespace ReactorDeploy

/-- A JSON document, its object members in the order of writing. -/
inductive Json where
  | text (s : String)
  | number (n : Nat)
  | truth (b : Bool)
  | list (items : List Json)
  | object (members : List (String × Json))
  deriving Repr, Inhabited

namespace Json

/-- A lower-case hexadecimal digit. -/
def hexDigit (n : Nat) : Char :=
  Nat.digitChar n

/-- A character within quotes. Only quotes, backslashes and control characters are escaped. -/
def escaped (c : Char) : List Char :=
  if c = '"' then ['\\', '"']
  else if c = '\\' then ['\\', '\\']
  else if c = '\x08' then ['\\', 'b']
  else if c = '\t' then ['\\', 't']
  else if c = '\n' then ['\\', 'n']
  else if c = '\x0c' then ['\\', 'f']
  else if c = '\r' then ['\\', 'r']
  else if c.toNat < 0x20 then
    ['\\', 'u', '0', '0', hexDigit (c.toNat / 16), hexDigit (c.toNat % 16)]
  else [c]

/-- A text in quotes. -/
def quote (s : String) : String :=
  "\"" ++ String.ofList (s.toList.flatMap escaped) ++ "\""

/-- The start of a line at the given level. -/
def lineAt (level : Nat) : String :=
  "\n" ++ String.join (List.replicate level "  ")

mutual

/-- The written form of a document whose first line is at the given level. -/
def renderAt (level : Nat) : Json → String
  | .text s => quote s
  | .number n => toString n
  | .truth b => if b then "true" else "false"
  | .list [] => "[]"
  | .list (j :: js) =>
    "[" ++ lineAt (level + 1) ++ renderAt (level + 1) j ++ renderItems (level + 1) js ++
      lineAt level ++ "]"
  | .object [] => "\x7b\x7d"
  | .object ((key, j) :: ms) =>
    "\x7b" ++ lineAt (level + 1) ++ quote key ++ ": " ++ renderAt (level + 1) j ++
      renderMembers (level + 1) ms ++ lineAt level ++ "\x7d"

/-- The items of a list after the first one. -/
def renderItems (level : Nat) : List Json → String
  | [] => ""
  | j :: js => "," ++ lineAt level ++ renderAt level j ++ renderItems level js

/-- The members of an object after the first one. -/
def renderMembers (level : Nat) : List (String × Json) → String
  | [] => ""
  | (key, j) :: ms =>
    "," ++ lineAt level ++ quote key ++ ": " ++ renderAt level j ++ renderMembers level ms

end

/-- The written form of a document. -/
def render (j : Json) : String :=
  renderAt 0 j

end Json

end ReactorDeploy
