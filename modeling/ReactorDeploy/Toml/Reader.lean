import ReactorDeploy.Toml.Quoted
import ReactorDeploy.Toml.Scalar
import ReactorDeploy.Toml.Table

/-!
# Reading TOML

A document is read as a list of lines, each of them a pair or a header, and the lines are then
grouped into the sections of a document. Version 1.0 of the format is read: a byte order mark may
stand at the start, lines end in a line feed with or without a carriage return before it, inline
tables stand on one line without a trailing comma, and lists may run over several lines.

Keys have fewer than eighty parts, and lists and inline tables nest less than eighty deep.
-/

namespace ReactorDeploy.Toml

open Quoted (isPlain)

/-! ## Blanks, comments and line ends -/

/-- The text without the blanks at its start. -/
def skipBlanks (cs : List Char) : List Char :=
  cs.dropWhile isInlineBlank

/-- Takes a line end, which the end of the text is as well. -/
def dropLineEnd? : List Char → Option (List Char)
  | '\n' :: rest => some rest
  | '\r' :: '\n' :: rest => some rest
  | [] => some []
  | _ => none

/-- Takes the blanks, the comment and the line end that may close a line. -/
def closeLine? (cs : List Char) : Option (List Char) :=
  match skipBlanks cs with
  | '#' :: rest => dropLineEnd? (rest.dropWhile isPlain)
  | rest => dropLineEnd? rest

/-- The text without the blanks, line ends and comments at its start, the first of which may be
the rest of a comment. A character that no comment can hold ends the skipping. -/
def skipLines (inComment : Bool) : List Char → List Char
  | '\r' :: '\n' :: rest => skipLines false rest
  | '\n' :: rest => skipLines false rest
  | c :: rest =>
    if inComment then if isPlain c then skipLines true rest else c :: rest
    else if c == '#' then skipLines true rest
    else if isInlineBlank c then skipLines false rest
    else c :: rest
  | [] => []

/-! ## Keys -/

/-- A character of a key that needs no quotes. -/
def isBare (c : Char) : Bool :=
  c.isAlphanum || c == '-' || c == '_'

/-- Reads one part of a key. -/
def readPart : List Char → Option (String × List Char)
  | '"' :: rest => (Quoted.readBasic rest).map fun (cs, rest) => (String.ofList cs, rest)
  | '\'' :: rest => (Quoted.readLiteral rest).map fun (cs, rest) => (String.ofList cs, rest)
  | cs =>
    let bare := cs.takeWhile isBare
    if bare.isEmpty then none else some (String.ofList bare, cs.dropWhile isBare)

/-- Reads at most the given number of parts of a key, with dots between them. -/
def readParts : Nat → List Char → Option (List String × List Char)
  | 0, _ => none
  | limit + 1, cs => do
    let (part, rest) ← readPart (skipBlanks cs)
    match skipBlanks rest with
    | '.' :: rest =>
      let (parts, rest) ← readParts limit rest
      return (part :: parts, rest)
    | rest => return ([part], rest)

/-- The key with the given parts. -/
def Key.ofParts? (parts : List String) : Option Key :=
  parts.getLast?.map fun name => ⟨parts.dropLast, name⟩

/-- Reads a key and the blanks around it. -/
def readKey (cs : List Char) : Option (Key × List Char) := do
  let (parts, rest) ← readParts 79 cs
  return (← Key.ofParts? parts, rest)

/-- Reads a key and the equals sign behind it. -/
def readKeyEquals (cs : List Char) : Option (Key × List Char) := do
  let (key, rest) ← readKey cs
  match rest with
  | '=' :: rest => return (key, rest)
  | _ => none

/-! ## Values -/

mutual

/-- Reads a value that nests at most `depth` deep. The first number bounds the steps taken. -/
def readValueWithin : Nat → (depth : Nat) → List Char → Option (Data × List Char)
  | 0, _, _ => none
  | fuel + 1, depth, cs =>
    match cs with
    | '[' :: rest =>
      if depth = 0 then none
      else (readItems fuel (depth - 1) rest).map fun (items, rest) => (.list items, rest)
    | '{' :: rest =>
      if depth = 0 then none
      else do
        let (pairs, rest) ← match skipBlanks rest with
          | '}' :: rest => some ([], rest)
          | rest => readInlinePairs fuel (depth - 1) rest
        return (← inlineTable? pairs, rest)
    | '"' :: _ | '\'' :: _ =>
      (Quoted.read cs).map fun (text, rest) => (.string (String.ofList text), rest)
    | _ => readScalar cs

/-- Reads the items of a list up to its closing bracket, from behind the opening one or a comma. -/
def readItems : Nat → (depth : Nat) → List Char → Option (List Data × List Char)
  | 0, _, _ => none
  | fuel + 1, depth, cs =>
    match skipLines false cs with
    | ']' :: rest => some ([], rest)
    | cs => do
      let (d, rest) ← readValueWithin fuel depth cs
      match skipLines false rest with
      | ',' :: rest =>
        let (items, rest) ← readItems fuel depth rest
        return (d :: items, rest)
      | ']' :: rest => return ([d], rest)
      | _ => none

/-- Reads the pairs of an inline table up to its closing brace, of which there is at least one. -/
def readInlinePairs : Nat → (depth : Nat) → List Char → Option (List (Key × Data) × List Char)
  | 0, _, _ => none
  | fuel + 1, depth, cs => do
    let (key, rest) ← readKeyEquals cs
    let (d, rest) ← readValueWithin fuel depth (skipBlanks rest)
    match skipBlanks rest with
    | ',' :: rest =>
      let (pairs, rest) ← readInlinePairs fuel depth rest
      return ((key, d) :: pairs, rest)
    | '}' :: rest => return ([(key, d)], rest)
    | _ => none

end

/-- Reads a value. Every two steps take at least one character, so that there are enough of
them. -/
def readValue (cs : List Char) : Option (Data × List Char) :=
  readValueWithin (2 * cs.length + 2) 79 cs

/-! ## Lines -/

/-- A line that says something. -/
inductive Line where
  | pair (key : Key) (d : Data)
  | header (h : Header)

/-- Reads a header up to the end of its line. -/
def readHeader : List Char → Option (Header × List Char)
  | '[' :: '[' :: rest => do
    let (key, rest) ← readKey rest
    match rest with
    | ']' :: ']' :: rest => return (.element key, ← closeLine? rest)
    | _ => none
  | '[' :: rest => do
    let (key, rest) ← readKey rest
    match rest with
    | ']' :: rest => return (.table key, ← closeLine? rest)
    | _ => none
  | _ => none

/-- Reads a pair up to the end of its line. -/
def readPair (cs : List Char) : Option (Key × Data × List Char) := do
  let (key, rest) ← readKeyEquals cs
  let (d, rest) ← readValue (skipBlanks rest)
  return (key, d, ← closeLine? rest)

/-- Reads at most the given number of lines. -/
def readLines : Nat → List Char → Option (List Line)
  | 0, _ => none
  | limit + 1, cs =>
    match skipBlanks cs with
    | [] => some []
    | '[' :: rest => do
      let (h, rest) ← readHeader ('[' :: rest)
      return .header h :: (← readLines limit rest)
    | c :: rest =>
      if c == '#' || c == '\n' || c == '\r' then do
        readLines limit (← closeLine? (c :: rest))
      else do
        let (key, d, rest) ← readPair (c :: rest)
        return .pair key d :: (← readLines limit rest)

/-- The document that lines make up. -/
def Document.ofLines : List Line → Document
  | [] => ⟨[], []⟩
  | .pair key d :: lines =>
    let doc := ofLines lines
    ⟨(key, d) :: doc.root, doc.sections⟩
  | .header h :: lines =>
    let doc := ofLines lines
    ⟨[], ⟨h, doc.root⟩ :: doc.sections⟩

/-- Reads a document. Every line has at least one character, its line end. -/
def Document.read? (cs : List Char) : Option Document :=
  let body := match cs with
    | '\ufeff' :: rest => rest
    | cs => cs
  (readLines (body.length + 1) body).map ofLines

/-- The data of a TOML text. -/
def parse? (s : String) : Option Data :=
  (Document.read? s.toList).bind Document.toData?

end ReactorDeploy.Toml
