import ReactorDeploy.Net.Ipv4

/-!
# Quoted text in TOML

A string is written in one of four forms: basic, with escapes, or literal, without any, and each of
them on one line or between triple quotes. `quote` picks the plainest form that can hold a text,
and `read` reads all four.

Basic forms escape the backslash, the control characters except a line feed between triple quotes,
and the quotation mark; between triple quotes two marks in a row may stand as they are, and the
third is escaped. A line feed just behind an opening triple quote does not count, so a text with
line feeds gets one put there.
-/

namespace ReactorDeploy.Toml.Quoted

/-- The four written forms of a string. -/
inductive Form where
  | basic
  | literal
  | multiBasic
  | multiLiteral
  deriving DecidableEq, Repr

/-! ## Writing -/

/-- Control characters that no form shows as they are. Tab and line feed are not among them. -/
def isControl (c : Char) : Bool :=
  (c.toNat < 0x20 && c != '\t' && c != '\n') || c.toNat == 0x7F

/-- The length of the longest run of `q` in a text, where `run` of them have just gone by. -/
def longestRun (q : Char) (run : Nat) : List Char → Nat
  | [] => run
  | c :: cs => if c = q then longestRun q (run + 1) cs else max run (longestRun q 0 cs)

/-- The plainest form that can hold a text: one line before several, basic before literal, and
with escapes only where nothing else is left. -/
def formFor (cs : List Char) : Form :=
  let control := cs.any isControl
  let newline := cs.contains '\n'
  let backslash := cs.contains '\\'
  let doubles := longestRun '"' 0 cs
  let singles := longestRun '\'' 0 cs
  if !control && !newline && !backslash && doubles = 0 then .basic
  else if !control && !newline && singles = 0 then .literal
  else if !control && !backslash && doubles ≤ 2 then .multiBasic
  else if !control && singles ≤ 2 then .multiLiteral
  else if newline then .multiBasic
  else .basic

/-- An upper-case hexadecimal digit. -/
def upperDigit (n : Nat) : Char :=
  (Nat.digitChar n).toUpper

/-- How a basic form writes a character other than the quotation mark, between triple quotes or
not. -/
def escaped (multi : Bool) (c : Char) : List Char :=
  if c = '\x08' then ['\\', 'b']
  else if c = '\t' then ['\\', 't']
  else if c = '\x0c' then ['\\', 'f']
  else if c = '\r' then ['\\', 'r']
  else if c = '\\' then ['\\', '\\']
  else if c = '\n' then if multi then ['\n'] else ['\\', 'n']
  else if isControl c then
    ['\\', 'u', '0', '0', upperDigit (c.toNat / 16), upperDigit (c.toNat % 16)]
  else [c]

/-- The body of a basic form, `run` quotation marks having just been written as they are. A run
ends at anything else. -/
def encodeBasic (multi : Bool) (run : Nat) : List Char → List Char
  | [] => []
  | c :: cs =>
    if c = '"' then
      if multi && run < 2 then '"' :: encodeBasic multi (run + 1) cs
      else '\\' :: '"' :: encodeBasic multi 0 cs
    else escaped multi c ++ encodeBasic multi 0 cs

/-- The line feed put behind an opening triple quote. -/
def leadingNewline (cs : List Char) : List Char :=
  if cs.contains '\n' then ['\n'] else []

/-- A text in the given form. The literal forms can hold only what `formFor` gives them. -/
def encode : Form → List Char → List Char
  | .basic, cs => ['"'] ++ encodeBasic false 0 cs ++ ['"']
  | .literal, cs => ['\''] ++ cs ++ ['\'']
  | .multiBasic, cs =>
    ['"', '"', '"'] ++ leadingNewline cs ++ encodeBasic true 0 cs ++ ['"', '"', '"']
  | .multiLiteral, cs =>
    ['\'', '\'', '\''] ++ leadingNewline cs ++ cs ++ ['\'', '\'', '\'']

/-- A text in its plainest form. -/
def quote (s : String) : String :=
  String.ofList (encode (formFor s.toList) s.toList)

/-! ## Reading

Every reader takes the text behind the opening quotes, and gives the characters read and the text
behind the closing ones. -/

/-- Puts a character before what was read. -/
def prepend (c : Char) (read : Option (List Char × List Char)) : Option (List Char × List Char) :=
  read.map fun (cs, rest) => (c :: cs, rest)

/-- Whether a character may stand as it is in a literal form, quotes and line feeds aside. -/
def isPlain (c : Char) : Bool :=
  c == '\t' || (0x20 ≤ c.toNat && c.toNat ≤ 0x7E) || 0x80 ≤ c.toNat

/-- Whether a character may stand as it is in a basic form, quotes and line feeds aside. -/
def isPlainBasic (c : Char) : Bool :=
  isPlain c && c != '"' && c != '\\'

/-- The character that a one-letter escape stands for. -/
def letterEscape? (c : Char) : Option Char :=
  match c with
  | 'b' => some '\x08'
  | 't' => some '\t'
  | 'n' => some '\n'
  | 'f' => some '\x0c'
  | 'r' => some '\r'
  | '"' => some '"'
  | '\\' => some '\\'
  | _ => none

/-- The character whose code point the hexadecimal digits give, if there is one. -/
def codePoint? (digits : List Char) : Option Char :=
  let n := Net.digitsValue 16 digits
  if digits.all (fun c => (Net.hexValue? c).isSome) && decide n.isValidChar then
    some (Char.ofNat n)
  else none

/-- Reads the rest of a basic form on one line. -/
def readBasic : List Char → Option (List Char × List Char)
  | '"' :: rest => some ([], rest)
  | '\\' :: 'u' :: a :: b :: c :: d :: rest => do
    prepend (← codePoint? [a, b, c, d]) (readBasic rest)
  | '\\' :: 'U' :: a :: b :: c :: d :: e :: f :: g :: h :: rest => do
    prepend (← codePoint? [a, b, c, d, e, f, g, h]) (readBasic rest)
  | '\\' :: letter :: rest => do prepend (← letterEscape? letter) (readBasic rest)
  | c :: rest => if isPlainBasic c then prepend c (readBasic rest) else none
  | [] => none

/-- Reads the rest of a literal form on one line. -/
def readLiteral : List Char → Option (List Char × List Char)
  | '\'' :: rest => some ([], rest)
  | c :: rest => if isPlain c then prepend c (readLiteral rest) else none
  | [] => none

/-- What remains at a closing triple quote: up to two more quotes belong to the text. -/
def closeMulti (q : Char) (rest : List Char) : Option (List Char × List Char) :=
  let extra := rest.takeWhile (· == q)
  if extra.length ≤ 2 then some (extra, rest.dropWhile (· == q)) else none

/-- Whether a line ends here, blanks aside. -/
def endsLine (cs : List Char) : Bool :=
  match cs.dropWhile (fun c => c == ' ' || c == '\t') with
  | '\n' :: _ => true
  | '\r' :: '\n' :: _ => true
  | _ => false

/-- Reads the rest of a basic form between triple quotes. A backslash at the end of a line takes
that line end away and the blanks and line ends after it, which is what `skipping` says is going
on. A carriage return and line feed read as a line feed. -/
def readMultiBasic (skipping : Bool) : List Char → Option (List Char × List Char)
  | '\r' :: '\n' :: rest =>
    if skipping then readMultiBasic true rest else prepend '\n' (readMultiBasic false rest)
  | '"' :: '"' :: '"' :: rest => closeMulti '"' rest
  | '"' :: rest => prepend '"' (readMultiBasic false rest)
  | '\\' :: 'u' :: a :: b :: c :: d :: rest => do
    prepend (← codePoint? [a, b, c, d]) (readMultiBasic false rest)
  | '\\' :: 'U' :: a :: b :: c :: d :: e :: f :: g :: h :: rest => do
    prepend (← codePoint? [a, b, c, d, e, f, g, h]) (readMultiBasic false rest)
  | '\\' :: letter :: rest =>
    if endsLine (letter :: rest) then readMultiBasic true rest
    else do prepend (← letterEscape? letter) (readMultiBasic false rest)
  | c :: rest =>
    if skipping && (c == ' ' || c == '\t' || c == '\n') then readMultiBasic true rest
    else if c == '\n' || isPlainBasic c then prepend c (readMultiBasic false rest)
    else none
  | [] => none

/-- Reads the rest of a literal form between triple quotes. -/
def readMultiLiteral : List Char → Option (List Char × List Char)
  | '\r' :: '\n' :: rest => prepend '\n' (readMultiLiteral rest)
  | '\'' :: '\'' :: '\'' :: rest => closeMulti '\'' rest
  | c :: rest => if c == '\n' || isPlain c then prepend c (readMultiLiteral rest) else none
  | [] => none

/-- The text without a line end at its start. -/
def dropNewline : List Char → List Char
  | '\n' :: rest => rest
  | '\r' :: '\n' :: rest => rest
  | cs => cs

/-- Reads a string in any of the four forms, opening quotes and all. -/
def read : List Char → Option (List Char × List Char)
  | '"' :: '"' :: '"' :: rest => readMultiBasic false (dropNewline rest)
  | '"' :: rest => readBasic rest
  | '\'' :: '\'' :: '\'' :: rest => readMultiLiteral (dropNewline rest)
  | '\'' :: rest => readLiteral rest
  | _ => none

end ReactorDeploy.Toml.Quoted
