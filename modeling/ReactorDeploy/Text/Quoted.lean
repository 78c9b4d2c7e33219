/-!
# Quoted text

A text between quotation marks in which a backslash makes the next character literal. Two encoders
are given: one goes character by character, as configuration files are written, the other replaces
all backslashes and then all quotation marks, as build descriptors are.
-/

namespace ReactorDeploy.Text

/-- A character within quotes, behind a backslash if it is a quotation mark or a backslash. -/
def escapeChar (c : Char) : List Char :=
  if c = '"' ∨ c = '\\' then ['\\', c] else [c]

/-- A text in quotes, escaped character by character. -/
def quoted (s : String) : String :=
  "\"" ++ String.ofList (s.toList.flatMap escapeChar) ++ "\""

/-- Every occurrence of the character `c` replaced by a text. -/
def replaceChar (c : Char) (replacement cs : List Char) : List Char :=
  cs.flatMap fun d => if d = c then replacement else [d]

/-- A text in quotes, escaped by replacing backslashes first and quotation marks second. -/
def quotedByReplacement (s : String) : String :=
  "\"" ++ String.ofList (replaceChar '"' ['\\', '"'] (replaceChar '\\' ['\\', '\\'] s.toList)) ++
    "\""

end ReactorDeploy.Text
