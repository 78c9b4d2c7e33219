import ReactorDeploy.Data
import ReactorDeploy.Net.Ipv4

/-!
# Numbers, dates and truth values in TOML

Readers for the scalars that are not strings. Each takes a text and gives what stands at its front
together with the text behind it; whether something may follow there is for the caller to say.

Integers have to fit 64 bits with a sign. A float is only checked: its value is never used, but a
positive one beyond the greatest double is refused.
-/

namespace ReactorDeploy.Toml

/-- A blank within a line: space or tab. -/
def isInlineBlank (c : Char) : Bool :=
  c == ' ' || c == '\t'

/-- Takes the given word off the front of a text. -/
def dropWord? : List Char → List Char → Option (List Char)
  | [], cs => some cs
  | w :: ws, c :: cs => if w = c then dropWord? ws cs else none
  | _ :: _, [] => none

/-! ## Digits -/

/-- Reads digits, between any two of which one underscore may stand. -/
def readDigits (isDigit : Char → Bool) : List Char → Option (List Char × List Char)
  | c :: '_' :: rest =>
    if isDigit c then (readDigits isDigit rest).map fun (ds, rest) => (c :: ds, rest) else none
  | c :: rest =>
    if isDigit c then
      match rest with
      | d :: _ =>
        if isDigit d then (readDigits isDigit rest).map fun (ds, rest) => (c :: ds, rest)
        else some ([c], rest)
      | [] => some ([c], rest)
    else none
  | [] => none

/-- Reads the digits of a decimal integer: no zero comes before other digits. -/
def readDecimal : List Char → Option (List Char × List Char)
  | '0' :: rest => some (['0'], rest)
  | cs => readDigits Char.isDigit cs

/-- A sign, and the text behind it. Without one, the sign is that of a positive number. -/
def readSign : List Char → Bool × List Char
  | '-' :: rest => (true, rest)
  | '+' :: rest => (false, rest)
  | cs => (false, cs)

/-- An integer that fits 64 bits with a sign. -/
def integer64? (n : Int) : Option Data :=
  if -0x8000000000000000 ≤ n ∧ n < 0x8000000000000000 then some (.integer n) else none

/-! ## Floats -/

/-- Whether a positive decimal float is too great for a double: at least as great as the midpoint
between the greatest double and what would be the next one. The float is `digits`, read as an
integer, times ten to the `exponent`. -/
def overflows (digits : List Char) (exponent : Int) : Bool :=
  let significant := digits.dropWhile (· == '0')
  let magnitude := (significant.length : Int) + exponent
  if significant.isEmpty || magnitude < 300 then false
  else if 320 < magnitude then true
  else
    let n := Net.digitsValue 10 significant
    let limit := (1 <<< 1024) - (1 <<< 970)
    if 0 ≤ exponent then limit ≤ n * Nat.pow 10 exponent.toNat
    else limit * Nat.pow 10 (-exponent).toNat ≤ n

/-- Reads the digits behind the point of a float, if there is a point. -/
def readFraction : List Char → Option (List Char × List Char)
  | '.' :: rest => readDigits Char.isDigit rest
  | cs => some ([], cs)

/-- Reads the exponent of a float, if there is one. -/
def readExponent : List Char → Option (Int × List Char)
  | c :: rest =>
    if c == 'e' || c == 'E' then do
      let (negative, rest) := readSign rest
      let (ds, rest) ← readDigits Char.isDigit rest
      let n : Int := Net.digitsValue 10 ds
      return (if negative then -n else n, rest)
    else some (0, c :: rest)
  | [] => some (0, [])

/-- Reads a decimal number: an integer, or a float if a point or an exponent follows it. -/
def readDecimalNumber (cs : List Char) : Option (Data × List Char) := do
  let (negative, body) := readSign cs
  let (whole, rest) ← readDecimal body
  match rest with
  | '.' :: _ | 'e' :: _ | 'E' :: _ =>
    let (fraction, rest) ← readFraction rest
    let (exponent, rest) ← readExponent rest
    if !negative && overflows (whole ++ fraction) (exponent - fraction.length) then none
    else return (.float, rest)
  | _ =>
    let n : Int := Net.digitsValue 10 whole
    return (← integer64? (if negative then -n else n), rest)

/-- Reads the digits of an integer in another base. -/
def readBased (base : Nat) (isDigit : Char → Bool) (cs : List Char) :
    Option (Data × List Char) := do
  let (ds, rest) ← readDigits isDigit cs
  return (← integer64? (Net.digitsValue base ds), rest)

/-- Reads a number. Bases other than ten take no sign; infinity and not-a-number do. -/
def readNumber (cs : List Char) : Option (Data × List Char) :=
  let body := (readSign cs).2
  match dropWord? "inf".toList body <|> dropWord? "nan".toList body with
  | some rest => some (.float, rest)
  | none =>
    match cs with
    | '0' :: 'x' :: rest => readBased 16 (fun c => (Net.hexValue? c).isSome) rest
    | '0' :: 'o' :: rest => readBased 8 (fun c => '0' ≤ c && c ≤ '7') rest
    | '0' :: 'b' :: rest => readBased 2 (fun c => c == '0' || c == '1') rest
    | _ => readDecimalNumber cs

/-! ## Dates and times -/

/-- Reads exactly `n` digits as a number. -/
def readFixed (n : Nat) (cs : List Char) : Option (Nat × List Char) :=
  let ds := cs.take n
  if ds.length = n && ds.all Char.isDigit then some (Net.digitsValue 10 ds, cs.drop n) else none

/-- Reads exactly `n` digits as a number within bounds. -/
def readBounded (n low high : Nat) (cs : List Char) : Option (Nat × List Char) :=
  match readFixed n cs with
  | some (value, rest) => if low ≤ value ∧ value ≤ high then some (value, rest) else none
  | none => none

/-- The number of days of a month. -/
def daysOfMonth (year month : Nat) : Nat :=
  if month = 2 then
    if year % 4 = 0 ∧ (year % 100 ≠ 0 ∨ year % 400 = 0) then 29 else 28
  else if month = 4 ∨ month = 6 ∨ month = 9 ∨ month = 11 then 30
  else 31

/-- Takes one given character off the front of a text. -/
def dropChar? (c : Char) : List Char → Option (List Char)
  | d :: rest => if c = d then some rest else none
  | [] => none

/-- Reads a calendar date, and gives the text behind it. -/
def skipDate? (cs : List Char) : Option (List Char) := do
  let (year, rest) ← readFixed 4 cs
  let rest ← dropChar? '-' rest
  let (month, rest) ← readBounded 2 1 12 rest
  let rest ← dropChar? '-' rest
  let (_, rest) ← readBounded 2 1 (daysOfMonth year month) rest
  return rest

/-- Reads a time of day, which may have a leap second and a fraction of one. -/
def skipTime? (cs : List Char) : Option (List Char) := do
  let (_, rest) ← readBounded 2 0 23 cs
  let rest ← dropChar? ':' rest
  let (_, rest) ← readBounded 2 0 59 rest
  let rest ← dropChar? ':' rest
  let (_, rest) ← readBounded 2 0 60 rest
  match rest with
  | '.' :: d :: more => if d.isDigit then return more.dropWhile Char.isDigit else none
  | _ => return rest

/-- Reads the offset of a time from universal time, if there is one. -/
def skipOffset? : List Char → Option (List Char)
  | c :: rest =>
    if c == 'Z' || c == 'z' then some rest
    else if c == '+' || c == '-' then do
      let (_, rest) ← readBounded 2 0 23 rest
      let rest ← dropChar? ':' rest
      let (_, rest) ← readBounded 2 0 59 rest
      return rest
    else some (c :: rest)
  | [] => some []

/-- Reads a date, a time of day, or both with or without an offset. What looks like a time behind
a date and is none is left to the text behind. -/
def readDateTime (cs : List Char) : Option (Data × List Char) :=
  match skipDate? cs with
  | some rest =>
    match rest with
    | delimiter :: time =>
      if delimiter == 'T' || delimiter == 't' || delimiter == ' ' then
        match skipTime? time with
        | some rest => (skipOffset? rest).map fun rest => (.dateTime, rest)
        | none => some (.dateTime, rest)
      else some (.dateTime, rest)
    | [] => some (.dateTime, [])
  | none => (skipTime? cs).map fun rest => (.dateTime, rest)

/-! ## Any of these -/

/-- Reads a scalar that is not a string. -/
def readScalar (cs : List Char) : Option (Data × List Char) :=
  match cs with
  | 't' :: _ => (dropWord? "true".toList cs).map fun rest => (.boolean true, rest)
  | 'f' :: _ => (dropWord? "false".toList cs).map fun rest => (.boolean false, rest)
  | _ => readDateTime cs <|> readNumber cs

end ReactorDeploy.Toml
