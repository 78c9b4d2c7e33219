/-!
# Paths

Paths are texts with slashes between their parts. Joining works on the text; looking a path up
works on its steps, each of which stays in a directory, leaves it upwards, or enters one of the
names in it. An absolute path starts at the root, any other one at the working directory.

A path keeps empty parts and dots, since its length counts them: taking a text apart loses nothing
(`text_ofString`). Only looking for the directories above a path passes over the parts that lead
nowhere (`settle`).
-/

namespace ReactorDeploy.Files

/-- A step along a path. -/
inductive Step where
  /-- The step `.`, which stays. -/
  | here
  /-- The step `..`, which leaves the directory upwards. -/
  | up
  | name (n : String)
  deriving DecidableEq, Repr

/-- A path, taken apart at its slashes. -/
structure Path where
  /-- Whether the path starts with a slash, which is none of those between the parts. -/
  absolute : Bool
  /-- What stands between the slashes, empty parts included. -/
  parts : List String
  deriving DecidableEq, Repr

namespace Path

/-! ## Texts and parts -/

/-- The parts of a text between slashes, empty ones included. -/
def splitSlashes : List Char → List (List Char)
  | [] => [[]]
  | c :: cs =>
    if c = '/' then [] :: splitSlashes cs
    else match splitSlashes cs with
      | [] => [[c]]
      | part :: parts => (c :: part) :: parts

/-- Takes a path apart. -/
def ofString (s : String) : Path :=
  match s.toList with
  | '/' :: cs => ⟨true, (splitSlashes cs).map String.ofList⟩
  | cs => ⟨false, (splitSlashes cs).map String.ofList⟩

/-- The text of a path. -/
def text (p : Path) : String :=
  (if p.absolute then "/" else "") ++ "/".intercalate p.parts

theorem splitSlashes_ne_nil (cs : List Char) : splitSlashes cs ≠ [] := by
  fun_cases splitSlashes cs <;> simp

/-- With slashes between them again, the parts of a text are the text. -/
theorem intercalate_splitSlashes (cs : List Char) :
    "/".intercalate ((splitSlashes cs).map String.ofList) = String.ofList cs := by
  induction cs with
  | nil => simp [splitSlashes]
  | cons c cs ih =>
    cases h : splitSlashes cs with
    | nil => exact absurd h (splitSlashes_ne_nil cs)
    | cons part parts =>
      rw [h] at ih
      by_cases hc : c = '/'
      · subst hc
        simp only [splitSlashes, h, if_true, List.map_cons, String.intercalate_cons_cons] at ih ⊢
        rw [ih]
        simp
      · have hp : String.ofList (c :: part) = String.ofList [c] ++ String.ofList part := by
          simp
        simp only [splitSlashes, h, hc, if_false, List.map_cons] at ih ⊢
        rw [hp, String.intercalate_cons_append, ih]
        simp

/-- Taking a text apart loses nothing. -/
theorem text_ofString (s : String) : (ofString s).text = s := by
  unfold ofString
  split <;> rename_i cs h
  · simp [text, intercalate_splitSlashes, ← String.toList_inj, h]
  · simp [text, intercalate_splitSlashes]

/-- The path below a directory that a text names. An absolute text names itself; the text stays as
it is, dots and all. -/
def join (directory text : String) : String :=
  if text.toList.head? = some '/' then text
  else if directory.isEmpty || directory.toList.getLast? = some '/' then directory ++ text
  else directory ++ "/" ++ text

/-- The number of bytes of the text of a path. -/
def size (p : Path) : Nat :=
  p.text.utf8ByteSize

/-! ## Steps -/

/-- The step that a part of a path is. An empty part is none: slashes next to each other count as
one. -/
def stepOf? (part : String) : Option Step :=
  if part = "" then none
  else if part = "." then some .here
  else if part = ".." then some .up
  else some (.name part)

/-- The steps along a path. -/
def steps (p : Path) : List Step :=
  p.parts.filterMap stepOf?

/-- Whether the path is that of an empty text, which leads nowhere. -/
def isEmpty (p : Path) : Bool :=
  !p.absolute && p.steps.isEmpty

/-- Whether the text ends in a slash, so that only a directory can be meant. -/
def trailingSlash (p : Path) : Bool :=
  !p.isEmpty && p.parts.getLast? == some ""

/-- Whether a step has the character NUL in it, which no name can have. -/
def hasNul : Step → Bool
  | .name n => n.toList.contains '\x00'
  | _ => false

/-! ## The way up -/

/-- Whether a part leads nowhere from the parts before it: an empty one, or a dot. A dot that comes
first in a relative path stands for the working directory. -/
def isIdle (absolute : Bool) (part : String) (before : List String) : Bool :=
  part == "" || part == "." && (absolute || !before.isEmpty)

/-- The parts of a path, last one first, without the idle ones at the end of the path. -/
def settle (absolute : Bool) : List String → List String
  | [] => []
  | part :: before => if isIdle absolute part before then settle absolute before else part :: before

end Path

end ReactorDeploy.Files
