/-!
# Blank characters and trimming

White space is the Unicode property `White_Space`: twenty-five code points, among them the
no-break spaces and the ideographic space but not the zero-width ones. Trimming is defined on
lists of characters, where it can be reasoned about, and lifted to strings.
-/

namespace ReactorDeploy.Text

/-- A character with the Unicode property `White_Space`. -/
def isBlank (c : Char) : Bool :=
  let n := c.toNat
  (9 ≤ n && n ≤ 13) || n == 0x20 || n == 0x85 || n == 0xA0 || n == 0x1680 ||
    (0x2000 ≤ n && n ≤ 0x200A) || n == 0x2028 || n == 0x2029 || n == 0x202F || n == 0x205F ||
    n == 0x3000

/-- `cs` without the longest tail whose characters all satisfy `p`. -/
def dropTail (p : Char → Bool) (cs : List Char) : List Char :=
  (cs.reverse.dropWhile p).reverse

/-- `cs` without the blanks at its two ends. -/
def trimChars (cs : List Char) : List Char :=
  dropTail isBlank (cs.dropWhile isBlank)

/-- `s` without the longest tail whose characters all satisfy `p`. -/
def stripEnd (p : Char → Bool) (s : String) : String :=
  String.ofList (dropTail p s.toList)

/-- `s` without the blanks at its end. -/
def trimEnd (s : String) : String :=
  stripEnd isBlank s

/-- `s` without the blanks at its two ends. -/
def trim (s : String) : String :=
  String.ofList (trimChars s.toList)

/-- Whether nothing but blanks stands in `s`. -/
def allBlank (s : String) : Bool :=
  s.toList.all isBlank

/-- The trimmed text of `s`, if anything remains. -/
def nonBlank? (s : String) : Option String :=
  let t := trim s
  if t.isEmpty then none else some t

@[simp] theorem dropTail_nil (p : Char → Bool) : dropTail p [] = [] := rfl

/-- The tail that `dropTail` cuts off consists of characters that satisfy the test. -/
theorem dropTail_append_takeWhile (p : Char → Bool) (cs : List Char) :
    dropTail p cs ++ (cs.reverse.takeWhile p).reverse = cs := by
  rw [dropTail, ← List.reverse_append, List.takeWhile_append_dropWhile, List.reverse_reverse]

end ReactorDeploy.Text
