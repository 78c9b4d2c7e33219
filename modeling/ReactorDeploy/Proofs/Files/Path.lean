import ReactorDeploy.Files.Change
import ReactorDeploy.Proofs.Text.Scan

/-!
# Paths put together from texts

Texts with a slash between them are a path that takes the steps of the first and then those of the
second (`steps_append_slash`), whatever slashes there are at the seam. A path is *contained* if it is
relative and never goes up; wherever it is joined to, it leads somewhere below (`goal_join`).
-/

namespace ReactorDeploy.Files

/-- The name that a step enters, if it enters one. -/
def Step.name? : Step → Option String
  | .name n => some n
  | _ => none

/-- Whether one way goes on where the other one ends, or both end there. -/
def Step.Overlap (r r' : List Step) : Prop :=
  r <+: r' ∨ r' <+: r

instance (r r' : List Step) : Decidable (Step.Overlap r r') :=
  inferInstanceAs (Decidable (_ ∨ _))

theorem Step.overlap_append {r x y : List Step} :
    Step.Overlap (r ++ x) (r ++ y) ↔ Step.Overlap x y :=
  or_congr (List.prefix_append_right_inj r) (List.prefix_append_right_inj r)

/-- Ways that go through names overlap only if they go through the same one. -/
theorem Step.overlap_name {m n : String} {x y : List Step} :
    Step.Overlap (.name m :: x) (.name n :: y) ↔ m = n ∧ Step.Overlap x y := by
  rw [Step.Overlap, Step.Overlap, List.cons_prefix_cons, List.cons_prefix_cons, Step.name.injEq,
    Step.name.injEq, eq_comm (a := n)]
  exact and_or_left.symm

namespace Path

/-! ## Steps -/

/-- The steps along a list of characters. -/
def stepsAlong (cs : List Char) : List Step :=
  ((splitSlashes cs).map String.ofList).filterMap stepOf?

theorem splitSlashes_append_slash (cs ds : List Char) :
    splitSlashes (cs ++ '/' :: ds) = splitSlashes cs ++ splitSlashes ds := by
  induction cs with
  | nil => simp [splitSlashes]
  | cons c cs ih =>
    rw [List.cons_append, splitSlashes, splitSlashes, ih]
    split
    · rfl
    · cases hcs : splitSlashes cs with
      | nil => exact absurd hcs (splitSlashes_ne_nil cs)
      | cons part parts => rfl

theorem splitSlashes_of_notMem {cs : List Char} (h : '/' ∉ cs) : splitSlashes cs = [cs] := by
  induction cs with
  | nil => rfl
  | cons c cs ih =>
    rw [List.mem_cons, not_or] at h
    rw [splitSlashes, if_neg (Ne.symm h.1), ih h.2]

theorem stepsAlong_append_slash (cs ds : List Char) :
    stepsAlong (cs ++ '/' :: ds) = stepsAlong cs ++ stepsAlong ds := by
  rw [stepsAlong, splitSlashes_append_slash, List.map_append, List.filterMap_append]
  rfl

/-- A slash in front takes no step. -/
theorem stepsAlong_slash (cs : List Char) : stepsAlong ('/' :: cs) = stepsAlong cs :=
  stepsAlong_append_slash [] cs

/-- Slashes at the end take no steps. -/
theorem stepsAlong_append_slashes (cs : List Char) {ds : List Char} (h : ∀ c ∈ ds, c = '/') :
    stepsAlong (cs ++ ds) = stepsAlong cs := by
  induction ds generalizing cs with
  | nil => rw [List.append_nil]
  | cons c ds ih =>
    obtain ⟨rfl, hds⟩ := List.forall_mem_cons.1 h
    have hnone : stepsAlong ds = [] := by simpa [stepsAlong, splitSlashes, stepOf?] using ih [] hds
    rw [stepsAlong_append_slash, hnone, List.append_nil]

/-- The steps of a path are those along its text. -/
theorem steps_ofString (s : String) : (ofString s).steps = stepsAlong s.toList := by
  unfold ofString
  split
  · next cs h =>
    rw [h, stepsAlong_slash]
    rfl
  · rfl

/-- A path is absolute if its text starts with a slash. -/
theorem absolute_ofString (s : String) :
    (ofString s).absolute = (s.toList.head? == some '/') := by
  unfold ofString
  split
  · next cs h =>
    rw [h]
    rfl
  · next h =>
    cases hs : s.toList with
    | nil => rfl
    | cons c cs =>
      have hc : c ≠ '/' := fun hc => h cs (by rw [hs, hc])
      simpa using hc

/-- Two texts with a slash between them take the steps of both. -/
theorem steps_append_slash (s t : String) :
    (ofString (s ++ "/" ++ t)).steps = (ofString s).steps ++ (ofString t).steps := by
  simp only [steps_ofString, String.toList_append]
  rw [List.append_assoc]
  exact stepsAlong_append_slash s.toList t.toList

/-- What comes behind a text does not make it absolute. -/
theorem absolute_append {s : String} (hs : s ≠ "") (t : String) :
    (ofString (s ++ t)).absolute = (ofString s).absolute := by
  rw [absolute_ofString, absolute_ofString, String.toList_append]
  cases hcs : s.toList with
  | nil => exact absurd (String.toList_inj.1 hcs) hs
  | cons c cs => rfl

/-- A text without slashes that is no dots is a name. -/
theorem steps_of_component {s : String} (hslash : '/' ∉ s.toList) (hne : s ≠ "") (hdot : s ≠ ".")
    (hup : s ≠ "..") : (ofString s).steps = [.name s] := by
  rw [steps_ofString, stepsAlong, splitSlashes_of_notMem hslash]
  simp [stepOf?, hne, hdot, hup]

/-! ## Slashes at the end -/

/-- Without the slashes at its end a path takes the same steps. -/
theorem steps_stripEnd (s : String) :
    (ofString (Text.stripEnd (· == '/') s)).steps = (ofString s).steps := by
  obtain ⟨cs, hs, hcs⟩ := Text.exists_stripEnd_append (· == '/') s
  rw [steps_ofString, steps_ofString, hs]
  exact (stepsAlong_append_slashes _ fun c hc => by simpa using hcs c hc).symm

/-! ## Joined paths -/

/-- The parts of a path are those of the text behind the slash that it may start with. -/
theorem parts_ofString_of_slash {s : String} {cs : List Char} (h : s.toList = '/' :: cs) :
    (ofString s).parts = (splitSlashes cs).map String.ofList := by
  unfold ofString
  rw [h]
  rfl

theorem parts_ofString_of_ne {s : String} (h : s.toList.head? ≠ some '/') :
    (ofString s).parts = (splitSlashes s.toList).map String.ofList := by
  unfold ofString
  split
  · next cs hcs =>
    rw [hcs] at h
    exact absurd rfl h
  · rfl

/-- The parts of two texts with a slash between them are those of both, if there are any before
the slash. -/
theorem exists_parts_append_slash (cs ds : List Char) :
    ∃ before, (ofString (String.ofList (cs ++ '/' :: ds))).parts =
      before ++ (splitSlashes ds).map String.ofList ∧ before.filterMap stepOf? = stepsAlong cs := by
  cases cs with
  | nil =>
    refine ⟨[], parts_ofString_of_slash (by rw [String.toList_ofList]; rfl), rfl⟩
  | cons c cs =>
    by_cases hc : c = '/'
    · subst hc
      have hparts := parts_ofString_of_slash (s := String.ofList ('/' :: cs ++ '/' :: ds))
        (String.toList_ofList)
      refine ⟨(splitSlashes cs).map String.ofList, ?_, (stepsAlong_slash cs).symm⟩
      rw [hparts, ← List.map_append]
      exact congrArg _ (splitSlashes_append_slash cs ds)
    · have hparts := parts_ofString_of_ne (s := String.ofList (c :: cs ++ '/' :: ds))
        (by simpa using hc)
      refine ⟨(splitSlashes (c :: cs)).map String.ofList, ?_, rfl⟩
      rw [hparts, String.toList_ofList, ← List.map_append]
      exact congrArg _ (splitSlashes_append_slash (c :: cs) ds)

theorem append_slash_eq (s t : String) :
    s ++ "/" ++ t = String.ofList (s.toList ++ '/' :: t.toList) := by
  rw [← String.toList_inj, String.toList_append, String.toList_append, String.toList_ofList,
    String.toList_ofList]
  exact List.append_assoc s.toList ['/'] t.toList

/-- The parts of a relative path come behind those of the directory that it is joined to. -/
theorem exists_parts_join (directory : String) {rel : String}
    (hrel : (ofString rel).absolute = false) :
    ∃ before, (ofString (join directory rel)).parts = before ++ (ofString rel).parts ∧
      before.filterMap stepOf? = (ofString directory).steps := by
  rw [absolute_ofString, beq_eq_false_iff_ne] at hrel
  rw [join, if_neg hrel, parts_ofString_of_ne hrel, steps_ofString]
  split
  · next hseam =>
    rcases Bool.or_eq_true_iff.1 hseam with hempty | hslash
    · rw [String.isEmpty_iff.1 hempty, String.empty_append]
      exact ⟨[], parts_ofString_of_ne hrel, rfl⟩
    · obtain ⟨cs, hcs⟩ := List.getLast?_eq_some_iff.1 (of_decide_eq_true hslash)
      have hsteps : stepsAlong directory.toList = stepsAlong cs := by
        rw [hcs]
        exact stepsAlong_append_slashes cs (by simp)
      have htext : directory ++ rel = String.ofList (cs ++ '/' :: rel.toList) := by
        rw [← String.toList_inj, String.toList_append, String.toList_ofList, hcs]
        exact List.append_assoc cs ['/'] rel.toList
      rw [hsteps, htext]
      exact exists_parts_append_slash cs rel.toList
  · rw [append_slash_eq]
    exact exists_parts_append_slash directory.toList rel.toList

/-- A relative path is joined to a directory step by step. -/
theorem steps_join {directory rel : String} (hrel : (ofString rel).absolute = false) :
    (ofString (join directory rel)).steps = (ofString directory).steps ++ (ofString rel).steps := by
  obtain ⟨before, hparts, hbefore⟩ := exists_parts_join directory hrel
  rw [steps, hparts, List.filterMap_append, hbefore]
  rfl

/-- A relative path stays relative to where the directory is looked for. -/
theorem absolute_join {directory rel : String} (hrel : (ofString rel).absolute = false) :
    (ofString (join directory rel)).absolute = (ofString directory).absolute := by
  by_cases hempty : directory = ""
  · subst hempty
    have hjoin : join "" rel = rel := by
      unfold join
      split
      · rfl
      · exact String.empty_append
    rw [hjoin, hrel]
    rfl
  · rw [absolute_ofString, beq_eq_false_iff_ne] at hrel
    rw [join, if_neg hrel]
    split
    · exact absolute_append hempty rel
    · rw [String.append_assoc]
      exact absolute_append hempty _

/-! ## Contained paths -/

/-- Whether a path is relative and never goes up. -/
def isContained (p : Path) : Bool :=
  !p.absolute && !p.steps.contains .up

theorem isContained_iff {p : Path} :
    p.isContained = true ↔ p.absolute = false ∧ .up ∉ p.steps := by
  simp [isContained]

/-- The names that a path enters. -/
def names (p : Path) : List String :=
  p.steps.filterMap Step.name?

/-- Steps that never go up lead below where they start, through their names. -/
theorem foldl_arrive {steps : List Step} (h : .up ∉ steps) (l : Location) :
    steps.foldl Step.arrive l = l ++ steps.filterMap Step.name? := by
  induction steps generalizing l with
  | nil => exact (List.append_nil l).symm
  | cons step steps ih =>
    rw [List.mem_cons, not_or] at h
    rw [List.foldl_cons, ih h.2]
    cases step with
    | here => rfl
    | up => exact absurd rfl h.1
    | name n => exact List.append_assoc l [n] _

/-- Joined to a directory, a path is followed from there, or from the root if it is absolute. -/
theorem goal_join_eq (directory rel : String) (cwd : Location) :
    (ofString (join directory rel)).goal cwd = (ofString rel).steps.foldl Step.arrive
      (if (ofString rel).absolute then [] else (ofString directory).goal cwd) := by
  cases hrel : (ofString rel).absolute with
  | false =>
    rw [goal, start, absolute_join hrel, steps_join hrel, List.foldl_append]
    rfl
  | true =>
    have hslash : rel.toList.head? = some '/' := by
      rw [absolute_ofString] at hrel
      exact eq_of_beq hrel
    rw [join, if_pos hslash, goal, start, hrel]
    rfl

/-- Joined to a directory, a contained path leads below it, through the names that it enters. -/
theorem goal_join {rel : String} (hrel : (ofString rel).isContained = true) (directory : String)
    (cwd : Location) :
    (ofString (join directory rel)).goal cwd =
      (ofString directory).goal cwd ++ (ofString rel).names := by
  obtain ⟨hrelative, hup⟩ := isContained_iff.1 hrel
  rw [goal_join_eq, hrelative]
  exact foldl_arrive hup _

/-- What follows a slash behind a path is followed from where the path leads. -/
theorem goal_append_slash {s : String} (hs : s ≠ "") (t : String) (cwd : Location) :
    (ofString (s ++ "/" ++ t)).goal cwd =
      (ofString t).steps.foldl Step.arrive ((ofString s).goal cwd) := by
  have habsolute : (ofString (s ++ "/" ++ t)).absolute = (ofString s).absolute := by
    rw [String.append_assoc]
    exact absolute_append hs _
  rw [goal, start, habsolute, steps_append_slash, List.foldl_append]
  rfl

theorem join_ne_empty {rel : String} (hrel : rel ≠ "") (directory : String) :
    join directory rel ≠ "" := by
  unfold join
  split_ifs <;> simp [hrel]

/-- Whether a path leads one directory down, wherever it is followed. -/
def LeadsDown (p : Path) : Prop :=
  ∃ n, ∀ l, p.steps.foldl Step.arrive l = l ++ [n]

/-! ## Paths that meet -/

/-- The steps of a path without the dots among them. -/
def route (p : Path) : List Step :=
  p.steps.filter (· != .here)

/-- Whether two paths lead to one place, or one of them to a place below that of the other. -/
def Meets (p q : Path) : Prop :=
  p.absolute = q.absolute ∧ Step.Overlap p.route q.route

theorem meets_self (p : Path) : p.Meets p :=
  ⟨rfl, .inl (List.prefix_refl _)⟩

/-- The route of a path that never goes up is the names that it enters. -/
theorem filter_eq_map_name {steps : List Step} (h : .up ∉ steps) :
    steps.filter (· != .here) = (steps.filterMap Step.name?).map .name := by
  induction steps with
  | nil => rfl
  | cons step steps ih =>
    rw [List.mem_cons, not_or] at h
    cases step with
    | here => exact ih h.2
    | up => exact absurd rfl h.1
    | name n =>
      have hkept : (Step.name n :: steps).filter (· != .here) =
          .name n :: steps.filter (· != .here) := rfl
      rw [hkept, ih h.2]
      rfl

/-- Contained paths meet if the names of the one start with those of the other. -/
theorem meets_of_names {p q : Path} (hp : p.isContained = true) (hq : q.isContained = true)
    (h : p.names <+: q.names ∨ q.names <+: p.names) : p.Meets q := by
  obtain ⟨hpa, hpu⟩ := isContained_iff.1 hp
  obtain ⟨hqa, hqu⟩ := isContained_iff.1 hq
  refine ⟨hpa.trans hqa.symm, ?_⟩
  rw [route, route, filter_eq_map_name hpu, filter_eq_map_name hqu]
  exact h.imp (·.map _) (·.map _)

/-! ## Paths of files -/

/-- Whether a path ends in a name, so that a file can be meant. -/
def EndsInName (p : Path) : Prop :=
  ∃ n ∈ p.parts.getLast?, stepOf? n = some (.name n)

instance (p : Path) : Decidable p.EndsInName :=
  inferInstanceAs (Decidable (∃ n ∈ p.parts.getLast?, stepOf? n = some (.name n)))

/-- A path ends in a name if what comes behind its last slashes does. -/
theorem endsInName_append_slash (s : String) {t : String} (ht : (ofString t).absolute = false)
    (h : (ofString t).EndsInName) : (ofString (s ++ "/" ++ t)).EndsInName := by
  obtain ⟨n, hlast, hn⟩ := h
  rw [absolute_ofString, beq_eq_false_iff_ne] at ht
  obtain ⟨before, hparts, -⟩ := exists_parts_append_slash s.toList t.toList
  rw [← parts_ofString_of_ne ht] at hparts
  obtain ⟨init, hinit⟩ := List.getLast?_eq_some_iff.1 hlast
  refine ⟨n, ?_, hn⟩
  rw [append_slash_eq, hparts, hinit, ← List.append_assoc]
  exact List.getLast?_concat

/-! ## Lengths -/

/-- A path is no longer than one that goes on. -/
theorem size_le_append (absolute : Bool) (parts more : List String) :
    size ⟨absolute, parts⟩ ≤ size ⟨absolute, parts ++ more⟩ := by
  unfold size text
  rw [String.utf8ByteSize_append, String.utf8ByteSize_append]
  refine Nat.add_le_add_left ?_ _
  by_cases hparts : parts = []
  · subst hparts
    exact Nat.zero_le _
  by_cases hmore : more = []
  · subst hmore
    rw [List.append_nil]
  · rw [String.intercalate_append_of_ne_nil hparts hmore, String.utf8ByteSize_append,
      String.utf8ByteSize_append, Nat.add_assoc]
    exact Nat.le_add_right _ _

end Path

end ReactorDeploy.Files
