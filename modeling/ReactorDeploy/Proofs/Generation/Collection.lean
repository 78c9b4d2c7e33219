import ReactorDeploy.Proofs.Generation.Placement
import Mathlib.Data.Finset.Card
import Mathlib.Data.List.Dedup

/-!
# What a set of artifacts has collected

A set is filled by additions: single artifacts, and whole sets, filled in the same way, that go
below a directory (`Addition`). All of them come down to artifacts that are pushed one after the
other (`performAll_eq_pushAll`). What a set has is then a function of the artifacts pushed: their
paths in the order in which they first came up (`paths_ofList`), and at each the last artifact
pushed there (`get?_ofList`).

A set that goes below a directory has lost what was replaced in it. Pushing all that was ever pushed
to it comes to the same (`pushAll_map_ofList`), since a directory keeps different paths apart.
-/

namespace ReactorDeploy

open Files (Path)

namespace ArtifactSet

/-! ## One artifact -/

section
variable {s : ArtifactSet} {a b : Artifact}

theorem mem_paths_push {path : String} :
    path ∈ (s.push a).paths ↔ path = a.path ∨ path ∈ s.paths :=
  mem_paths_putInto

/-- An artifact at a path that is there takes the place of the one at it. -/
theorem paths_putInto_of_mem {bs : List Artifact} (h : a.path ∈ bs.map Artifact.path) :
    (a.putInto bs).map Artifact.path = bs.map Artifact.path := by
  induction bs with
  | nil => cases h
  | cons b bs ih =>
    rw [Artifact.putInto]
    split
    · next heq => rw [List.map_cons, List.map_cons, heq]
    · next hne =>
      rw [List.map_cons, List.mem_cons] at h
      rw [List.map_cons, List.map_cons, ih (h.resolve_left (Ne.symm hne))]

/-- A path that is new comes last, and one that is there stays where it is. -/
theorem paths_push (s : ArtifactSet) (a : Artifact) :
    (s.push a).paths = if a.path ∈ s.paths then s.paths else s.paths ++ [a.path] := by
  split
  · next h => exact paths_putInto_of_mem h
  · next h =>
    show (a.putInto s.artifacts).map Artifact.path = _
    rw [putInto_eq_append h, List.map_append]
    rfl

/-- The artifact found at a path is the first one if it is there. -/
theorem find?_cons_path (b : Artifact) (bs : List Artifact) (path : String) :
    (b :: bs).find? (fun a => a.path == path) =
      if b.path = path then some b else bs.find? fun a => a.path == path := by
  split
  · next h => exact List.find?_cons_of_pos (beq_iff_eq.2 h)
  · next h => exact List.find?_cons_of_neg (by simpa using h)

/-- At the path of an artifact there is the artifact, and elsewhere what was there. -/
theorem get?_push (s : ArtifactSet) (a : Artifact) (path : String) :
    (s.push a).get? path = if a.path = path then some a else s.get? path := by
  obtain ⟨bs⟩ := s
  show (a.putInto bs).find? _ = if a.path = path then some a else bs.find? _
  induction bs with
  | nil => exact find?_cons_path a [] path
  | cons b bs ih =>
    rw [Artifact.putInto]
    split
    · next heq =>
      rw [find?_cons_path, find?_cons_path, heq]
      split <;> rfl
    · next hne =>
      rw [find?_cons_path, find?_cons_path, ih]
      by_cases hb : b.path = path
      · have ha : a.path ≠ path := fun ha => hne (hb.trans ha.symm)
        rw [if_pos hb, if_neg ha, if_pos hb]
      · rw [if_neg hb, if_neg hb]

/-- An artifact replaces the one that was pushed to its path just before. -/
theorem push_push (h : b.path = a.path) : (s.push b).push a = s.push a := by
  obtain ⟨cs⟩ := s
  refine congrArg ArtifactSet.mk ?_
  show a.putInto (b.putInto cs) = a.putInto cs
  induction cs with
  | nil => simp [Artifact.putInto, h]
  | cons c cs ih =>
    by_cases hc : c.path = a.path
    · simp [Artifact.putInto, h, hc]
    · simp [Artifact.putInto, h, hc, ih]

/-- An artifact that replaces one can be pushed before one at another path, or after it. -/
theorem push_comm (hmem : a.path ∈ s.paths) (hne : b.path ≠ a.path) :
    (s.push b).push a = (s.push a).push b := by
  obtain ⟨cs⟩ := s
  refine congrArg ArtifactSet.mk ?_
  show a.putInto (b.putInto cs) = b.putInto (a.putInto cs)
  change a.path ∈ cs.map Artifact.path at hmem
  induction cs with
  | nil => cases hmem
  | cons c cs ih =>
    rw [List.map_cons, List.mem_cons] at hmem
    by_cases ha : c.path = a.path
    · simp [Artifact.putInto, ha, hne.symm]
    · have hrest := ih (hmem.resolve_left (Ne.symm ha))
      by_cases hb : c.path = b.path
      · simp [Artifact.putInto, hb, hne]
      · simp [Artifact.putInto, ha, hb, hrest]

/-- An artifact that replaces one can be pushed before artifacts at other paths, or after them. -/
theorem push_pushAll_comm {as : List Artifact} (hmem : a.path ∈ s.paths)
    (hne : a.path ∉ as.map Artifact.path) : (s.pushAll as).push a = (s.push a).pushAll as := by
  induction as generalizing s with
  | nil => rfl
  | cons b as ih =>
    rw [List.map_cons, List.mem_cons, not_or] at hne
    show ((s.push b).pushAll as).push a = ((s.push a).push b).pushAll as
    rw [ih (mem_paths_push.2 (.inr hmem)) hne.2, push_comm hmem (Ne.symm hne.1)]

end

/-! ## Artifacts one after the other -/

theorem ofList_append_singleton (as : List Artifact) (a : Artifact) :
    ofList (as ++ [a]) = (ofList as).push a :=
  pushAll_append {} as [a]

/-- Without its duplicates a text that comes last is there once. -/
theorem eraseDups_append_singleton (xs : List String) (x : String) :
    (xs ++ [x]).eraseDups = if x ∈ xs then xs.eraseDups else xs.eraseDups ++ [x] := by
  rw [List.eraseDups_append, List.removeAll, List.filter_singleton]
  by_cases h : x ∈ xs <;> simp [h, List.eraseDups_cons]

/-- The paths of a set are those of the artifacts pushed, in the order in which they first came
up. -/
theorem paths_ofList (as : List Artifact) :
    (ofList as).paths = (as.map Artifact.path).eraseDups := by
  induction as using List.reverseRecOn with
  | nil => rfl
  | append_singleton as a ih =>
    rw [ofList_append_singleton, paths_push, ih, List.map_append, List.map_singleton,
      eraseDups_append_singleton]
    simp only [List.mem_eraseDups]

/-- The paths of a set are different. -/
theorem nodup_paths_ofList (as : List Artifact) : (ofList as).paths.Nodup := by
  induction as using List.reverseRecOn with
  | nil => exact List.nodup_nil
  | append_singleton as a ih =>
    rw [ofList_append_singleton, paths_push]
    split
    · exact ih
    · next h =>
      exact ih.append (List.nodup_singleton _) (List.disjoint_singleton.2 h)

/-- A set has at a path the last artifact that was pushed there. -/
theorem get?_ofList (as : List Artifact) (path : String) :
    (ofList as).get? path = as.reverse.find? fun a => a.path == path := by
  induction as using List.reverseRecOn with
  | nil => rfl
  | append_singleton as a ih =>
    rw [ofList_append_singleton, get?_push, List.reverse_append, List.reverse_singleton,
      List.singleton_append, find?_cons_path, ih]

/-- A set has as many artifacts as the artifacts pushed have different paths. -/
theorem size_ofList (as : List Artifact) :
    (ofList as).size = (as.map Artifact.path).toFinset.card := by
  have hpaths : (ofList as).paths.toFinset = (as.map Artifact.path).toFinset := by
    ext path
    rw [List.mem_toFinset, List.mem_toFinset, mem_paths_ofList]
  rw [← hpaths, List.toFinset_card_of_nodup (nodup_paths_ofList as), paths, List.length_map, size]

/-! ## Sets moved elsewhere -/

section
variable {f : Artifact → Artifact}

/-- Moving artifact by artifact what was put into a list is moving the list and then the artifact,
if moving keeps paths apart. -/
theorem pushAll_map_putInto (hf : ∀ a b, (f a).path = (f b).path ↔ a.path = b.path)
    (s : ArtifactSet) (a : Artifact) {bs : List Artifact} (h : (bs.map Artifact.path).Nodup) :
    s.pushAll ((a.putInto bs).map f) = (s.pushAll (bs.map f)).push (f a) := by
  induction bs generalizing s with
  | nil => rfl
  | cons b bs ih =>
    rw [List.map_cons, List.nodup_cons] at h
    rw [Artifact.putInto]
    split
    · next heq =>
      have hthere : (f a).path ∈ (s.push (f b)).paths :=
        mem_paths_push.2 (.inl ((hf a b).2 heq.symm))
      have hrest : (f a).path ∉ (bs.map f).map Artifact.path := by
        intro hmem
        rw [List.map_map] at hmem
        obtain ⟨c, hc, hpath⟩ := List.mem_map.1 hmem
        have hca : c.path = a.path := (hf c a).1 hpath
        exact h.1 (List.mem_map.2 ⟨c, hc, hca.trans heq.symm⟩)
      show (s.push (f a)).pushAll (bs.map f) = ((s.push (f b)).pushAll (bs.map f)).push (f a)
      rw [push_pushAll_comm hthere hrest, push_push ((hf b a).2 heq)]
    · exact ih (s.push (f b)) h.2

/-- Moving a set is moving everything that was ever pushed to it. -/
theorem pushAll_map_ofList (hf : ∀ a b, (f a).path = (f b).path ↔ a.path = b.path)
    (s : ArtifactSet) (as : List Artifact) :
    s.pushAll ((ofList as).artifacts.map f) = s.pushAll (as.map f) := by
  induction as using List.reverseRecOn with
  | nil => rfl
  | append_singleton as a ih =>
    rw [ofList_append_singleton, List.map_append, pushAll_append, ← ih]
    exact pushAll_map_putInto hf s a (nodup_paths_ofList as)

end

/-- A directory is what is left of it without the slashes at its end, and these. -/
theorem exists_base (directory : String) :
    ∃ base slashes, directory = base ++ slashes ∧ (∀ c ∈ slashes.toList, c = '/') ∧
      base.toList.getLast? ≠ some '/' ∧ Text.stripEnd (· == '/') directory = base := by
  obtain ⟨cs, hdirectory, hcs⟩ := Text.exists_stripEnd_append (· == '/') directory
  have hstops : Text.Stops (· == '/') (Text.stripEnd (· == '/') directory).toList.reverse := by
    rw [Text.stripEnd, String.toList_ofList]
    exact Text.stops_reverse_dropTail _ _
  refine ⟨Text.stripEnd (· == '/') directory, String.ofList cs, ?_, ?_, ?_, rfl⟩
  · rw [← String.toList_inj, hdirectory, String.toList_append, String.toList_ofList]
  · intro c hc
    rw [String.toList_ofList] at hc
    exact beq_iff_eq.1 (hcs c hc)
  · intro hlast
    rw [← List.head?_reverse] at hlast
    exact absurd (hstops '/' hlast) (by decide)

/-- Artifacts below a directory are at the same path exactly if they were. -/
theorem path_under_inj (directory : String) (a b : Artifact) :
    (a.under directory).path = (b.under directory).path ↔ a.path = b.path := by
  cases h : Artifact.isSlashes directory with
  | true => rw [Artifact.under_of_isSlashes h, Artifact.under_of_isSlashes h]
  | false =>
    rw [Artifact.path_under h, Artifact.path_under h]
    exact String.append_right_inj _

/-! ## Additions -/

/-- What is added to a set: an artifact, or below a directory a set that is filled itself. -/
inductive Addition where
  | push (a : Artifact)
  | extend (directory : String) (additions : List Addition)

mutual

/-- Adds to a set. -/
def Addition.perform (s : ArtifactSet) : Addition → ArtifactSet
  | .push a => s.push a
  | .extend directory additions => s.extendUnder directory (performAll {} additions)

/-- Adds to a set, one addition after the other. -/
def performAll (s : ArtifactSet) : List Addition → ArtifactSet
  | [] => s
  | addition :: additions => performAll (addition.perform s) additions

end

/-- The set that starts empty and is filled by additions. -/
def filled (additions : List Addition) : ArtifactSet :=
  performAll {} additions

/-- The artifacts that are pushed in an addition: those that another set has are pushed below the
directory. -/
def Addition.pushes : Addition → List Artifact
  | .push a => [a]
  | .extend directory additions => (filled additions).artifacts.map (Artifact.under directory)

mutual

/-- The artifacts that ever went into an addition, at the paths where they end up. -/
def Addition.arrivals : Addition → List Artifact
  | .push a => [a]
  | .extend directory additions => (arrivalsOf additions).map (Artifact.under directory)

/-- The artifacts that ever went into additions, at the paths where they end up. -/
def arrivalsOf : List Addition → List Artifact
  | [] => []
  | addition :: additions => addition.arrivals ++ arrivalsOf additions

end

/-- An addition pushes artifacts. -/
theorem Addition.perform_eq_pushAll (s : ArtifactSet) (addition : Addition) :
    addition.perform s = s.pushAll addition.pushes := by
  cases addition with
  | push a => rfl
  | extend directory additions =>
    rw [perform]
    rfl

/-- Additions push artifacts, one after the other. -/
theorem performAll_eq_pushAll (s : ArtifactSet) (additions : List Addition) :
    performAll s additions = s.pushAll (additions.flatMap Addition.pushes) := by
  induction additions generalizing s with
  | nil => rfl
  | cons addition additions ih =>
    rw [performAll, ih, addition.perform_eq_pushAll, List.flatMap_cons, pushAll_append]

theorem filled_eq_ofList (additions : List Addition) :
    filled additions = ofList (additions.flatMap Addition.pushes) :=
  performAll_eq_pushAll {} additions

theorem filled_append (additions more : List Addition) :
    filled (additions ++ more) = performAll (filled additions) more := by
  rw [filled_eq_ofList, ofList, List.flatMap_append, pushAll_append, performAll_eq_pushAll,
    filled_eq_ofList, ofList]

mutual

/-- What was replaced in a set before it went below a directory makes no difference. -/
theorem Addition.perform_eq_arrivals (s : ArtifactSet) (addition : Addition) :
    addition.perform s = s.pushAll addition.arrivals := by
  cases addition with
  | push a => rfl
  | extend directory additions =>
    rw [Addition.perform, performAll_eq_arrivals {} additions, Addition.arrivals]
    exact pushAll_map_ofList (path_under_inj directory) s (arrivalsOf additions)

theorem performAll_eq_arrivals (s : ArtifactSet) (additions : List Addition) :
    performAll s additions = s.pushAll (arrivalsOf additions) := by
  cases additions with
  | nil => rfl
  | cons addition additions =>
    rw [performAll, performAll_eq_arrivals, addition.perform_eq_arrivals, arrivalsOf,
      pushAll_append]

end

/-- A set that is filled by additions has different paths, in the order in which artifacts were
first pushed to them, and at each the last artifact that was pushed there; it has as many artifacts
as there are such paths. Adding another set below a directory is pushing its artifacts in order, at
paths behind the directory without the slashes at its end, or at their own if nothing is left of
it; and all that was ever pushed to that set could be pushed instead. -/
theorem filled_collects (additions : List Addition) :
    let pushed := additions.flatMap Addition.pushes
    (filled additions).paths.Nodup ∧
      (filled additions).paths = (pushed.map Artifact.path).eraseDups ∧
      (∀ path, (filled additions).get? path = pushed.reverse.find? fun a => a.path == path) ∧
      (filled additions).size = (pushed.map Artifact.path).toFinset.card ∧
      (∀ directory inner, ∃ base slashes, directory = base ++ slashes ∧
        (∀ c ∈ slashes.toList, c = '/') ∧ base.toList.getLast? ≠ some '/' ∧
        filled (additions ++ [.extend directory inner]) =
          (filled inner).artifacts.foldl
            (fun s a => s.push { a with
              path := if base = "" then a.path else base ++ "/" ++ a.path })
            (filled additions)) ∧
      filled additions = ofList (arrivalsOf additions) := by
  intro pushed
  have hfilled : filled additions = ofList pushed := filled_eq_ofList additions
  refine ⟨?_, ?_, fun path => ?_, ?_, fun directory inner => ?_, ?_⟩
  · exact hfilled ▸ nodup_paths_ofList pushed
  · exact hfilled ▸ paths_ofList pushed
  · exact hfilled ▸ get?_ofList pushed path
  · exact hfilled ▸ size_ofList pushed
  · obtain ⟨base, slashes, hdirectory, hslashes, hlast, hbase⟩ := exists_base directory
    refine ⟨base, slashes, hdirectory, hslashes, hlast, ?_⟩
    have hunder : ∀ a : Artifact, a.under directory =
        { a with path := if base = "" then a.path else base ++ "/" ++ a.path } := by
      intro a
      rw [Artifact.under, hbase]
      by_cases hempty : base = "" <;> simp [hempty]
    rw [filled_append, performAll, performAll, Addition.perform, extendUnder, pushAll,
      List.foldl_map]
    simp only [hunder]
    rfl
  · exact performAll_eq_arrivals {} additions

/-- Two spellings of a directory lead to one place. -/
example :
    (filled [.extend "App//" [.push ⟨"a", "one", false⟩, .push ⟨"b", "", false⟩],
      .push ⟨"App/a", "two", true⟩]).artifacts =
      [⟨"App/a", "two", true⟩, ⟨"App/b", "", false⟩] := by
  decide

end ArtifactSet

end ReactorDeploy
