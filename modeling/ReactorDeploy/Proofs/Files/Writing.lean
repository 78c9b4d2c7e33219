import ReactorDeploy.Artifact
import ReactorDeploy.Proofs.Files.Growth

/-!
# What writing leaves alone

Writing an artifact changes the file that its path leads to and no other one: the directories made
on the way are new and take no file's place. So artifacts whose paths are contained change files
below the directory that they are written to, and none elsewhere
(`file?_writeAll_of_contained`).
-/

namespace ReactorDeploy

open Files (Location Path Step Node File FileError Tree)

namespace Files

/-- A place below a location. -/
def Below (root l : Location) : Prop :=
  ∃ names, names ≠ [] ∧ l = root ++ names

namespace Tree

/-! ## Writing files -/

/-- Writing a file changes no other one. -/
theorem file?_writeFile {t t' : Tree} {cwd : Location} {p : Path} {content : ByteArray}
    (h : t.writeFile cwd p content = .ok t') {l : Location} (hl : l ≠ p.goal cwd) :
    t'.file? l = t.file? l := by
  obtain ⟨m, n, hgoal, -, -, rfl⟩ := exists_of_writeFile h
  rw [hgoal] at hl
  exact file?_put_of_ne t hl _

/-- Permitting a file to be executed changes no other one. -/
theorem file?_allowExecution {t t' : Tree} {cwd : Location} {p : Path}
    (h : t.allowExecution cwd p = .ok t') {l : Location} (hl : l ≠ p.goal cwd) :
    t'.file? l = t.file? l := by
  obtain ⟨⟨k, node⟩, hstat, h⟩ := exists_of_bind h
  rw [← eq_of_stat hstat] at hl
  cases node with
  | directory =>
    cases h
    rfl
  | file f =>
    cases h
    exact file?_put_of_ne t hl _

end Tree

end Files

open Files.Tree

/-! ## Writing artifacts -/

/-- Writing an artifact changes no file but that at its path, even if it fails. -/
theorem Artifact.file?_write (a : Artifact) (t : Tree) (cwd : Location) (path : String)
    {l : Location} (hl : l ≠ (Path.ofString path).goal cwd) :
    (a.write t cwd path).2.file? l = t.file? l := by
  have hparents := (grown_makeParents t cwd (Path.ofString path)).file?_eq l
  unfold write
  dsimp only
  split
  · next e t' h =>
    rwa [h] at hparents
  · next t' h =>
    rw [h] at hparents
    split
    · exact hparents
    · next t'' hwrite =>
      have hwritten := (file?_writeFile hwrite hl).trans hparents
      split
      · split
        · exact hwritten
        · next t''' hallow => exact (file?_allowExecution hallow hl).trans hwritten
      · exact hwritten

/-- Writing stops at an artifact that cannot be written. -/
theorem Artifact.writeEach_of_error {t t' : Tree} {cwd : Location} {root : String} {a : Artifact}
    {e : FileError} (h : a.write t cwd (Path.join root a.path) = (.error e, t'))
    (rest : List Artifact) :
    Artifact.writeEach cwd root (a :: rest) t = (.error ⟨Path.join root a.path, e⟩, t') := by
  rw [writeEach.eq_def]
  simp only [h]

/-- Writing goes on behind an artifact that is written. -/
theorem Artifact.writeEach_of_ok {t t' : Tree} {cwd : Location} {root : String} {a : Artifact}
    (h : a.write t cwd (Path.join root a.path) = (.ok (), t')) (rest : List Artifact) :
    Artifact.writeEach cwd root (a :: rest) t =
      ((Artifact.writeEach cwd root rest t').1.map (Path.join root a.path :: ·),
        (Artifact.writeEach cwd root rest t').2) := by
  rw [writeEach.eq_def]
  simp only [h]
  split <;> next hrest => rw [hrest]; rfl

/-- Writing artifacts changes no files but those at their paths. -/
theorem Artifact.file?_writeEach {cwd : Location} {root : String} {artifacts : List Artifact}
    {l : Location}
    (hl : ∀ a ∈ artifacts, l ≠ (Path.ofString (Path.join root a.path)).goal cwd) (t : Tree) :
    (Artifact.writeEach cwd root artifacts t).2.file? l = t.file? l := by
  induction artifacts generalizing t with
  | nil => rfl
  | cons a rest ih =>
    obtain ⟨ha, hrest⟩ := List.forall_mem_cons.1 hl
    have hfirst := a.file?_write t cwd (Path.join root a.path) ha
    rcases h : a.write t cwd (Path.join root a.path) with ⟨e | _, t'⟩ <;> rw [h] at hfirst
    · rwa [writeEach_of_error h]
    · rw [writeEach_of_ok h]
      exact (ih hrest t').trans hfirst

/-- Artifacts at contained paths change files only below the directory they are written to. -/
theorem ArtifactSet.file?_writeAll_of_contained {s : ArtifactSet}
    (hcontained : ∀ a ∈ s.artifacts,
      (Path.ofString a.path).isContained = true ∧ (Path.ofString a.path).names ≠ [])
    (t : Tree) (cwd : Location) (root : String) {l : Location}
    (hl : ¬ Files.Below ((Path.ofString root).goal cwd) l) :
    (s.writeAll t cwd root).2.file? l = t.file? l := by
  refine Artifact.file?_writeEach (fun a ha heq => hl ?_) t
  obtain ⟨hpath, hnames⟩ := hcontained a ha
  exact ⟨_, hnames, heq.trans (Path.goal_join hpath root cwd)⟩

end ReactorDeploy
