import ReactorDeploy.Text.CaseData

/-!
# Lower-casing

The full lower-case mapping of Unicode, without language tailoring. Each character is mapped on
its own, with two exceptions: the dotted capital I becomes two characters, and a capital sigma
becomes the final form at the end of a word. A sigma ends a word when some cased character stands
before it and none after it, ignorable characters being passed over on both sides.
-/

namespace ReactorDeploy.Text

/-- Whether a code point lies in one of the ranges. -/
def inRanges (ranges : List (Nat × Nat)) (n : Nat) : Bool :=
  ranges.any fun r => r.1 ≤ n && n ≤ r.2

/-- Characters that have an upper, lower or title case form, or are one. -/
def isCased (c : Char) : Bool :=
  inRanges casedRanges c.toNat

/-- Characters that the rule for the final sigma passes over. -/
def isCaseIgnorable (c : Char) : Bool :=
  inRanges caseIgnorableRanges c.toNat

/-- Whether the range holds the code point as one of its upper-case characters. -/
def CaseRange.covers (r : CaseRange) (n : Nat) : Bool :=
  r.first ≤ n && n ≤ r.last && (n - r.first) % r.step == 0

/-- The lower-case partner of a character by itself. -/
def lowerChar (c : Char) : Char :=
  match caseRanges.find? (·.covers c.toNat) with
  | some r => Char.ofNat (c.toNat + r.shift).toNat
  | none => c

/-- Whether the first character that is not ignorable is a cased one. -/
def startsCased (cs : List Char) : Bool :=
  match cs.dropWhile isCaseIgnorable with
  | [] => false
  | c :: _ => isCased c

/-- The lower-case form of `c` where `before` is the text before it, read backwards, and `after`
the text that follows. -/
def lowerAt (before : List Char) (c : Char) (after : List Char) : List Char :=
  if c = 'İ' then ['i', '\u0307']
  else if c = 'Σ' then
    if startsCased before && !startsCased after then ['ς'] else ['σ']
  else [lowerChar c]

/-- Lower-cases `cs` after the text `before`, which is held backwards. -/
def lowerFrom (before : List Char) : List Char → List Char
  | [] => []
  | c :: after => lowerAt before c after ++ lowerFrom (c :: before) after

/-- The lower-case form of a text. -/
def lowercase (s : String) : String :=
  String.ofList (lowerFrom [] s.toList)

end ReactorDeploy.Text
