import ReactorDeploy.Text.Quoted

/-!
# CMake documents

A document is a list of commands, comments and conditional blocks. Arguments are written as they
are given, with a blank between two of them: what needs quotes is quoted by whoever puts it there.
-/

namespace ReactorDeploy.CMake

/-- A reference to a variable. -/
def var (name : String) : String :=
  "$\x7b" ++ name ++ "\x7d"

/-- A reference to an environment variable. -/
def env (name : String) : String :=
  "$ENV\x7b" ++ name ++ "\x7d"

/-- A quoted argument. -/
def quoted (s : String) : String :=
  Text.quotedByReplacement s

/-- A line of a document, or a conditional block. -/
inductive Line where
  | command (name : String) (args : List String)
  /-- A line that is written as it is. -/
  | raw (text : String)
  | blank
  | comment (text : String)
  | conditional (condition : String) (body : List Line) (otherwise : Option (List Line))
  deriving Repr, Inhabited

/-- A list of lines, which may stand in a conditional block of another one. -/
abbrev Document := List Line

namespace Document

/-- The command that sets a variable. -/
def set (name value : String) : Line :=
  .command "set" [name, value]

/-- The command that sets a variable unless the user has set it. -/
def setCache (name value doc : String) : Line :=
  .command "set" [name, quoted value, "CACHE", "STRING", quoted doc]

/-- A block for when a condition holds. -/
def ifThen (condition : String) (body : Document) : Line :=
  .conditional condition body none

/-- Two blocks of which the condition decides. -/
def ifElse (condition : String) (body otherwise : Document) : Line :=
  .conditional condition body (some otherwise)

end Document

/-- The start of a line at the given depth of blocks. -/
def indent (depth : Nat) : String :=
  String.join (List.replicate depth "  ")

/-- A command with its arguments. -/
def commandText (name : String) (args : List String) : String :=
  name ++ "(" ++ " ".intercalate args ++ ")"

mutual

/-- The written form of a line at the given depth of blocks. -/
def Line.renderAt (depth : Nat) : Line → String
  | .command name args => indent depth ++ commandText name args ++ "\n"
  | .raw text => indent depth ++ text ++ "\n"
  | .blank => "\n"
  | .comment text => indent depth ++ "# " ++ text ++ "\n"
  | .conditional condition body none =>
    indent depth ++ "if(" ++ condition ++ ")\n" ++ renderLines (depth + 1) body ++
      indent depth ++ "endif()\n"
  | .conditional condition body (some otherwise) =>
    indent depth ++ "if(" ++ condition ++ ")\n" ++ renderLines (depth + 1) body ++
      indent depth ++ "else()\n" ++ renderLines (depth + 1) otherwise ++
      indent depth ++ "endif()\n"

/-- The written form of lines at the given depth of blocks. -/
def renderLines (depth : Nat) : List Line → String
  | [] => ""
  | line :: lines => line.renderAt depth ++ renderLines depth lines

end

/-- The written form of a document. -/
def Document.render (doc : Document) : String :=
  renderLines 0 doc

mutual

/-- The commands of a line, those in blocks included, each with its arguments. -/
def Line.commands : Line → List (String × List String)
  | .command name args => [(name, args)]
  | .conditional _ body none => commandsOf body
  | .conditional _ body (some otherwise) => commandsOf body ++ commandsOf otherwise
  | _ => []

/-- The commands of lines, those in blocks included, each with its arguments. -/
def commandsOf : List Line → List (String × List String)
  | [] => []
  | line :: lines => line.commands ++ commandsOf lines

end

end ReactorDeploy.CMake
