import ReactorDeploy.Proofs.Federation.Artifacts
import ReactorDeploy.Proofs.Files.Path
import ReactorDeploy.Proofs.Generation.Outcome
import ReactorDeploy.Proofs.Manifest.RoundTrip

/-!
# Where artifacts are placed

The artifacts of a pass are what the generators of its units make, each placed below the directory
of its unit, and the launch script if there is one (`artifacts_ofUnits`). A unit has its artifacts
at paths from a fixed list (`paths_generated`), so where they end up is a matter of its
directory: `steps_under` and `isContained_under`.
-/

namespace ReactorDeploy

open Files (Path Step)

/-! ## Sets of artifacts -/

namespace ArtifactSet

theorem mem_of_mem_putInto {a b : Artifact} {bs : List Artifact} (h : b ∈ a.putInto bs) :
    b = a ∨ b ∈ bs := by
  induction bs with
  | nil => exact .inl (List.mem_singleton.1 h)
  | cons c cs ih =>
    rw [Artifact.putInto] at h
    split at h
    · exact (List.mem_cons.1 h).imp id (List.mem_cons_of_mem c)
    · rcases List.mem_cons.1 h with rfl | h
      · exact .inr (.head _)
      · exact (ih h).imp id (List.mem_cons_of_mem c)

theorem mem_putInto (a : Artifact) (bs : List Artifact) : a ∈ a.putInto bs := by
  induction bs with
  | nil => exact .head _
  | cons b bs ih =>
    rw [Artifact.putInto]
    split
    · exact .head _
    · exact .tail _ ih

/-- A set has the paths that it had, and that of the artifact that is put into it. -/
theorem mem_paths_putInto {a : Artifact} {bs : List Artifact} {path : String} :
    path ∈ (a.putInto bs).map Artifact.path ↔ path = a.path ∨ path ∈ bs.map Artifact.path := by
  induction bs with
  | nil => simp [Artifact.putInto]
  | cons b bs ih =>
    rw [Artifact.putInto]
    split
    · next h =>
      rw [List.map_cons, List.map_cons, List.mem_cons, List.mem_cons, h]
      exact or_self_left.symm
    · rw [List.map_cons, List.map_cons, List.mem_cons, List.mem_cons, ih]
      exact or_left_comm

/-- What a set has was put into it. -/
theorem mem_of_mem_pushAll {s : ArtifactSet} {artifacts : List Artifact} {a : Artifact}
    (h : a ∈ (s.pushAll artifacts).artifacts) : a ∈ s.artifacts ∨ a ∈ artifacts := by
  induction artifacts generalizing s with
  | nil => exact .inl h
  | cons b artifacts ih =>
    rcases ih (s := s.push b) h with hpush | hrest
    · rcases mem_of_mem_putInto hpush with rfl | hold
      · exact .inr (.head _)
      · exact .inl hold
    · exact .inr (.tail _ hrest)

/-- A set has the path of everything that was put into it. -/
theorem mem_paths_pushAll {s : ArtifactSet} {artifacts : List Artifact} {path : String} :
    path ∈ (s.pushAll artifacts).paths ↔
      path ∈ s.paths ∨ path ∈ artifacts.map Artifact.path := by
  induction artifacts generalizing s with
  | nil => simp [pushAll]
  | cons b artifacts ih =>
    have hstep : s.pushAll (b :: artifacts) = (s.push b).pushAll artifacts := rfl
    rw [hstep, ih, List.map_cons, List.mem_cons, paths, paths, push, mem_paths_putInto]
    tauto

theorem mem_of_mem_ofList {artifacts : List Artifact} {a : Artifact}
    (h : a ∈ (ofList artifacts).artifacts) : a ∈ artifacts :=
  (mem_of_mem_pushAll h).resolve_left nofun

theorem mem_paths_ofList {artifacts : List Artifact} {path : String} :
    path ∈ (ofList artifacts).paths ↔ path ∈ artifacts.map Artifact.path := by
  rw [ofList, mem_paths_pushAll]
  simp [paths]

/-- Adding two lists of artifacts one after the other is adding both. -/
theorem pushAll_append (s : ArtifactSet) (as bs : List Artifact) :
    s.pushAll (as ++ bs) = (s.pushAll as).pushAll bs :=
  List.foldl_append

end ArtifactSet

/-! ## Below a directory -/

namespace Artifact

/-- Whether nothing but slashes is in a text. -/
def isSlashes (s : String) : Bool :=
  s.toList.all (· == '/')

theorem stripEnd_eq_empty_iff {directory : String} :
    Text.stripEnd (· == '/') directory = "" ↔ isSlashes directory = true := by
  rw [Text.stripEnd_eq_empty_iff, isSlashes, List.all_eq_true]

/-- Below a directory of nothing but slashes an artifact stays where it is. -/
theorem under_of_isSlashes {directory : String} (h : isSlashes directory = true) (a : Artifact) :
    a.under directory = a := by
  rw [under, stripEnd_eq_empty_iff.2 h]
  rfl

/-- Below any other one its path follows that of the directory. -/
theorem path_under {directory : String} (h : isSlashes directory = false) (a : Artifact) :
    (a.under directory).path = Text.stripEnd (· == '/') directory ++ "/" ++ a.path := by
  have hbase : (Text.stripEnd (· == '/') directory).isEmpty = false := by
    rw [← Bool.not_eq_true, String.isEmpty_iff, stripEnd_eq_empty_iff, h]
    nofun
  rw [under, hbase]
  rfl

/-- An artifact below a directory is reached through the directory. -/
theorem steps_under (directory : String) (a : Artifact) :
    (Path.ofString (a.under directory).path).steps =
      (Path.ofString directory).steps ++ (Path.ofString a.path).steps := by
  rw [← Path.steps_stripEnd directory]
  cases h : isSlashes directory with
  | true =>
    rw [under_of_isSlashes h, stripEnd_eq_empty_iff.2 h]
    rfl
  | false => rw [path_under h, Path.steps_append_slash]

/-- An artifact below a directory is found where the directory is. -/
theorem absolute_under {directory : String} (h : isSlashes directory = false) (a : Artifact) :
    (Path.ofString (a.under directory).path).absolute = (Path.ofString directory).absolute := by
  have hbase : Text.stripEnd (· == '/') directory ≠ "" := by
    rw [Ne, stripEnd_eq_empty_iff, h]
    nofun
  obtain ⟨cs, hcs, -⟩ := Text.exists_stripEnd_append (· == '/') directory
  have hdirectory : directory = Text.stripEnd (· == '/') directory ++ String.ofList cs := by
    rw [← String.toList_inj, hcs, String.toList_append, String.toList_ofList]
  rw [path_under h, String.append_assoc, Path.absolute_append hbase]
  conv_rhs => rw [hdirectory, Path.absolute_append hbase]

/-- An artifact at a contained path stays contained below a directory that is contained, or that
is nothing but slashes. -/
theorem isContained_under {directory : String} {a : Artifact}
    (ha : (Path.ofString a.path).isContained = true) :
    (Path.ofString (a.under directory).path).isContained = true ↔
      (Path.ofString directory).isContained = true ∨ isSlashes directory = true := by
  cases h : isSlashes directory with
  | true => simp [under_of_isSlashes h, ha]
  | false =>
    rw [Path.isContained_iff, Path.isContained_iff, absolute_under h, steps_under]
    simp [(Path.isContained_iff.1 ha).2]

end Artifact

/-! ## The artifacts of a pass -/

/-- The artifacts of a unit, placed below its directory. -/
def PlannedUnit.placed (p : PlannedUnit) (s : Setup) (r : Request) : List Artifact :=
  (p.generated s r).map (Artifact.under p.directory)

/-- Everything that a pass over planned units makes: their artifacts in order, and the launch
script if there is one. -/
def Request.made (r : Request) (s : Setup) (ps : List PlannedUnit) : List Artifact :=
  ps.flatMap (fun p => p.placed s r) ++ r.manifest.script?.toList

/-- The set of a pass is that of everything that it makes. -/
theorem artifacts_ofUnits (s : Setup) (r : Request) (ps : List PlannedUnit) :
    (GenerationOutput.ofUnits s r ps r.manifest.script?).artifacts =
      .ofList (r.made s ps) := by
  have hfold : ∀ out : GenerationOutput,
      (ps.foldl (fun out p => p.addTo s r out) out).artifacts =
        out.artifacts.pushAll (ps.flatMap fun p => p.placed s r) := by
    induction ps with
    | nil => exact fun out => rfl
    | cons p ps ih =>
      intro out
      rw [List.foldl_cons, ih, List.flatMap_cons, ArtifactSet.pushAll_append]
      show ArtifactSet.pushAll (out.artifacts.pushAll _) _ = _
      rw [p.artifacts_eq_generated]
      rfl
  rw [Request.made, ArtifactSet.ofList, ArtifactSet.pushAll_append, ← hfold {}]
  rfl

/-- The generators of a unit make its entry point. -/
theorem PlannedUnit.entryPoint_mem_generated (p : PlannedUnit) (s : Setup) (r : Request) :
    EntryPoint.path ∈ (p.generated s r).map Artifact.path :=
  .head _

/-- What the generators of a unit make is a file of some kind of toolchain. -/
theorem PlannedUnit.exists_mem_files {p : PlannedUnit} {s : Setup} {r : Request} {a : Artifact}
    (ha : a ∈ p.generated s r) : ∃ kind : ToolchainKind, a.path ∈ kind.files := by
  obtain ⟨kind, hkind⟩ := p.paths_generated s r
  exact ⟨kind, hkind.mem (List.mem_map_of_mem ha)⟩

/-- What the generators of a unit make is at contained paths with names in them. -/
theorem PlannedUnit.isContained_of_mem_generated {p : PlannedUnit} {s : Setup} {r : Request}
    {a : Artifact} (ha : a ∈ p.generated s r) :
    (Path.ofString a.path).isContained = true ∧ (Path.ofString a.path).names ≠ [] := by
  obtain ⟨kind, hkind⟩ := exists_mem_files ha
  have hfiles : ∀ file ∈ kind.files,
      (Path.ofString file).isContained = true ∧ (Path.ofString file).names ≠ [] := by
    cases kind <;> decide
  exact hfiles _ hkind

/-! ## The directories of federates -/

theorem ne_empty_of_allBlank {name : String} (h : Text.allBlank name = false) : name ≠ "" := by
  rintro rfl
  cases h

/-- A manifest that was read has a name. -/
theorem Manifest.name_ne_empty_of_parse {text : String} {m : Manifest} (h : Manifest.parse text = .ok m) :
    m.name ≠ "" :=
  ne_empty_of_allBlank (hasBlankName_of_parse h)

/-- A name that is one path component has no slash in it, and is no dots. -/
theorem of_isSinglePathComponent {name : String} (h : isSinglePathComponent name = true) :
    '/' ∉ name.toList ∧ name ≠ "." ∧ name ≠ ".." := by
  simp only [isSinglePathComponent, Bool.and_eq_true, Bool.not_eq_true', bne_iff_ne] at h
  obtain ⟨⟨hslash, hdot⟩, hup⟩ := h
  rw [List.any_eq_false] at hslash
  exact ⟨fun hmem => absurd (hslash '/' hmem) (by decide), hdot, hup⟩

/-- A name that is one path component is that step. -/
theorem steps_of_isSinglePathComponent {name : String} (hblank : Text.allBlank name = false)
    (hcomponent : isSinglePathComponent name = true) :
    (Path.ofString name).steps = [.name name] := by
  obtain ⟨hslash, hdot, hup⟩ := of_isSinglePathComponent hcomponent
  exact Path.steps_of_component hslash (ne_empty_of_allBlank hblank) hdot hup

section
variable {m : Manifest} {warnings : List Problem}

/-- The directory of a federate is one step below that of the application. -/
theorem Manifest.steps_directory (hcheck : m.check = .ok warnings) {f : Federate}
    (hf : f ∈ m.federates) :
    (Path.ofString ((Role.federate f).directory m.name)).steps =
      (Path.ofString m.name).steps ++ [.name f.name] := by
  obtain ⟨hblank, hcomponent⟩ := isSinglePathComponent_of_check hcheck hf
  rw [Role.directory, Path.steps_append_slash, steps_of_isSinglePathComponent hblank hcomponent]

/-- The directory of a federate is more than slashes. -/
theorem Manifest.isSlashes_directory (hcheck : m.check = .ok warnings) {f : Federate}
    (hf : f ∈ m.federates) :
    Artifact.isSlashes ((Role.federate f).directory m.name) = false := by
  by_contra hslashes
  rw [Bool.not_eq_false, ← Artifact.stripEnd_eq_empty_iff] at hslashes
  have hsteps := m.steps_directory hcheck hf
  rw [← Path.steps_stripEnd, hslashes] at hsteps
  exact absurd hsteps.symm (by simp [Path.steps, Path.ofString, Path.splitSlashes, Path.stepOf?])

/-- The directory of a federate is found where that of the application is. -/
theorem Manifest.absolute_directory (hname : m.name ≠ "") (f : Federate) :
    (Path.ofString ((Role.federate f).directory m.name)).absolute =
      (Path.ofString m.name).absolute := by
  rw [Role.directory, String.append_assoc]
  exact Path.absolute_append hname _

/-- The unit of a standalone application is the application, and those of a federation are its
federates. -/
theorem Manifest.Planned.role_cases {n : Numbering} {ps : List PlannedUnit} (h : m.Planned n ps)
    {p : PlannedUnit} (hp : p ∈ ps) :
    m.isFederated = false ∧ p.role = .standalone ∨
      m.isFederated = true ∧ ∃ f ∈ m.federates, p.role = .federate f := by
  have hrole : p.role ∈ m.roles := h.roles_eq ▸ List.mem_map_of_mem hp
  unfold Manifest.roles at hrole
  cases hfederated : m.isFederated with
  | false =>
    rw [hfederated] at hrole
    exact .inl ⟨rfl, List.mem_singleton.1 hrole⟩
  | true =>
    rw [hfederated] at hrole
    obtain ⟨f, hf, hfrole⟩ := List.mem_map.1 hrole
    exact .inr ⟨rfl, f, Manifest.mem_orderedFederates.1 hf, hfrole.symm⟩

/-- Different units of a pass are different federates, with names of their own. -/
theorem Manifest.Planned.pairwise_federates {n : Numbering} {ps : List PlannedUnit}
    (h : m.Planned n ps) (hcheck : m.check = .ok warnings) :
    ps.Pairwise fun p q => ∃ f ∈ m.federates, ∃ g ∈ m.federates,
      p.role = .federate f ∧ q.role = .federate g ∧ f.name ≠ g.name := by
  have hnames : (m.orderedFederates.map Federate.name).Nodup :=
    (m.orderedFederates_perm.map Federate.name).nodup_iff.2 (nodup_names_of_check hcheck)
  have hroles : m.roles.Pairwise fun x y => ∃ f ∈ m.federates, ∃ g ∈ m.federates,
      x = .federate f ∧ y = .federate g ∧ f.name ≠ g.name := by
    unfold roles
    split
    · rw [List.pairwise_map]
      refine (List.pairwise_map.1 hnames).imp_of_mem fun {f g} hf hg hne => ?_
      exact ⟨f, mem_orderedFederates.1 hf, g, mem_orderedFederates.1 hg, rfl, rfl, hne⟩
    · exact List.pairwise_singleton _ _
  rw [← h.roles_eq] at hroles
  exact List.pairwise_map.1 hroles

/-- An artifact of a federate is reached through the directory of the application, that of the
federate and its own path. -/
theorem Manifest.Planned.steps_placed {n : Numbering} {ps : List PlannedUnit} (h : m.Planned n ps)
    (hcheck : m.check = .ok warnings) {p : PlannedUnit} (hp : p ∈ ps) {f : Federate}
    (hf : f ∈ m.federates) (hrole : p.role = .federate f) (a : Artifact) :
    (Path.ofString (a.under p.directory).path).steps =
      (Path.ofString m.name).steps ++ .name f.name :: (Path.ofString a.path).steps := by
  rw [Artifact.steps_under, h.directory_eq hp, hrole, m.steps_directory hcheck hf,
    List.append_assoc]
  rfl

/-- The way to an artifact of a federate goes through the directory of the federate. -/
theorem Manifest.Planned.route_placed {n : Numbering} {ps : List PlannedUnit} (h : m.Planned n ps)
    (hcheck : m.check = .ok warnings) {p : PlannedUnit} (hp : p ∈ ps) {f : Federate}
    (hf : f ∈ m.federates) (hrole : p.role = .federate f) (a : Artifact) :
    (Path.ofString (a.under p.directory).path).route =
      (Path.ofString m.name).route ++ .name f.name :: (Path.ofString a.path).route := by
  rw [Path.route, h.steps_placed hcheck hp hf hrole, List.filter_append]
  rfl

/-- The artifacts of different units do not meet. -/
theorem Manifest.Planned.pairwise_apart {n : Numbering} {ps : List PlannedUnit}
    (h : m.Planned n ps) (hcheck : m.check = .ok warnings) (s : Setup) (r : Request) :
    ps.Pairwise fun p q => ∀ a ∈ p.placed s r, ∀ b ∈ q.placed s r,
      ¬ (Path.ofString a.path).Meets (Path.ofString b.path) := by
  refine (h.pairwise_federates hcheck).imp_of_mem fun {p q} hp hq hroles a ha b hb hmeets => ?_
  obtain ⟨f, hf, g, hg, hprole, hqrole, hne⟩ := hroles
  obtain ⟨a, -, rfl⟩ := List.mem_map.1 ha
  obtain ⟨b, -, rfl⟩ := List.mem_map.1 hb
  obtain ⟨-, hoverlap⟩ := hmeets
  rw [h.route_placed hcheck hp hf hprole, h.route_placed hcheck hq hg hqrole, Step.overlap_append,
    Step.overlap_name] at hoverlap
  exact hne hoverlap.1

/-! ## The launch script -/

/-- Only a federation has a launch script. -/
theorem Manifest.of_script? {a : Artifact} (h : m.script? = some a) :
    m.isFederated = true ∧ m.launches = true ∧
      a.path = m.name ++ "/" ++ m.launchScript.path := by
  unfold Manifest.script? Manifest.launchArtifact? at h
  split at h
  · next hfederated =>
    split at h
    · next hlaunches =>
      cases h
      exact ⟨hfederated, hlaunches, rfl⟩
    · cases h
  · cases h

/-- The launch script is reached through the directory of the application and one for scripts. -/
theorem Manifest.steps_script {a : Artifact} (h : m.script? = some a) :
    (Path.ofString a.path).steps =
      (Path.ofString m.name).steps ++ .name "bin" :: (Path.ofString m.name).steps := by
  obtain ⟨-, -, hpath⟩ := of_script? h
  have hscript : m.launchScript.path = "bin" ++ "/" ++ m.name := rfl
  rw [hpath, hscript, Path.steps_append_slash, Path.steps_append_slash]
  rfl

/-- The launch script is found where the directory of the application is. -/
theorem Manifest.absolute_script (hname : m.name ≠ "") {a : Artifact} (h : m.script? = some a) :
    (Path.ofString a.path).absolute = (Path.ofString m.name).absolute := by
  obtain ⟨-, -, hpath⟩ := of_script? h
  rw [hpath, String.append_assoc]
  exact Path.absolute_append hname _

end

end ReactorDeploy
