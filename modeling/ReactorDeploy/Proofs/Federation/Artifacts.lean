import ReactorDeploy.Generation
import Mathlib.Data.List.Nodup

/-!
# The artifacts of one unit

Whatever the registry, a unit is built natively or left to the tooling of Zephyr
(`toolchain_cases`), which says which generators make its artifacts.

A set of artifacts takes the place of an artifact that is already at a path, so it keeps all that
is put into it only if the paths are different (`artifacts_pushAll`). Those of one unit are,
whatever toolchain it has (`nodup_paths`), so that a unit has every artifact that its generators
make.
-/

namespace ReactorDeploy

namespace ArtifactSet

/-- An artifact at a new path comes last. -/
theorem putInto_eq_append {a : Artifact} {bs : List Artifact}
    (h : a.path ∉ bs.map Artifact.path) : a.putInto bs = bs ++ [a] := by
  induction bs with
  | nil => rfl
  | cons b bs ih =>
    rw [List.map_cons, List.mem_cons, not_or] at h
    rw [Artifact.putInto, if_neg (Ne.symm h.1), ih h.2, List.cons_append]

/-- Artifacts at different new paths come last, all of them. -/
theorem artifacts_pushAll {s : ArtifactSet} {artifacts : List Artifact}
    (h : ((s.artifacts ++ artifacts).map Artifact.path).Nodup) :
    (s.pushAll artifacts).artifacts = s.artifacts ++ artifacts := by
  induction artifacts generalizing s with
  | nil => exact (List.append_nil _).symm
  | cons a artifacts ih =>
    have hnew : a.path ∉ s.artifacts.map Artifact.path := by
      rw [List.map_append, List.map_cons] at h
      exact fun hmem => List.disjoint_of_nodup_append h hmem (.head _)
    have hpush : (s.push a).artifacts = s.artifacts ++ [a] := putInto_eq_append hnew
    have hstep : s.pushAll (a :: artifacts) = (s.push a).pushAll artifacts := rfl
    rw [hstep, ih (by simpa [hpush] using h), hpush, List.append_assoc, List.singleton_append]

/-- A set of artifacts at different paths has them all, in order. -/
theorem artifacts_ofList {artifacts : List Artifact}
    (h : (artifacts.map Artifact.path).Nodup) : (ofList artifacts).artifacts = artifacts :=
  artifacts_pushAll h

/-- In a set of artifacts at different paths, the artifact at the path of one of them is that
one. -/
theorem get?_of_mem {s : ArtifactSet} (hpaths : s.paths.Nodup) {a : Artifact}
    (ha : a ∈ s.artifacts) : s.get? a.path = some a := by
  obtain ⟨artifacts⟩ := s
  unfold get?
  unfold paths at hpaths
  dsimp only at ha hpaths ⊢
  induction artifacts with
  | nil => cases ha
  | cons b artifacts ih =>
    rw [List.map_cons, List.nodup_cons] at hpaths
    rcases List.mem_cons.1 ha with rfl | ha
    · exact List.find?_cons_of_pos (by simp)
    · have hne : b.path ≠ a.path := fun heq => hpaths.1 (heq ▸ List.mem_map_of_mem ha)
      rw [List.find?_cons_of_neg (by simpa using hne)]
      exact ih hpaths.2 ha

end ArtifactSet

/-- A registry assigns the toolchain of some kind. -/
theorem Registry.exists_toolchainFor (registry : Registry) (platform : Platform) :
    ∃ kind : ToolchainKind, registry.toolchainFor platform =
      kind.toolchain (platform.resolve .auto) :=
  ⟨_, rfl⟩

/-- A toolchain that builds a unit natively with some tooling, and keeps its configuration in one
file. -/
structure Toolchain.BuildsNatively (t : Toolchain) (tooling : NativeTooling) (file : String) :
    Prop where
  generators : t.generators = [.entryPoint t.entry, .nativeBuild (.ofTooling tooling)]
  native : t.native = some (.ofTooling tooling)
  layout : t.layout = .combined file
  plan : t.plan = .native

/-- A toolchain that leaves a unit to the tooling of Zephyr. -/
structure Toolchain.BuildsOnZephyr (t : Toolchain) : Prop where
  generators : t.generators = [.entryPoint t.entry, .zephyr]
  native : t.native = none
  layout : t.layout = .split "prj_lf.conf" "prj.conf"
  plan : t.plan = .rtosTooling

/-- The toolchain of a unit is one of these, whatever the registry. -/
theorem PlannedUnit.toolchain_cases (p : PlannedUnit) (s : Setup) (r : Request) :
    (∃ tooling file, (p.toolchain s r).BuildsNatively tooling file) ∨
      (p.toolchain s r).BuildsOnZephyr := by
  obtain ⟨kind, hkind⟩ := s.registry.exists_toolchainFor (p.platform r)
  unfold PlannedUnit.toolchain
  rw [hkind]
  cases kind with
  | common | freeRtos | riot => exact .inl ⟨.cmake, _, rfl, rfl, rfl, rfl⟩
  | espIdf => exact .inl ⟨.espIdf, _, rfl, rfl, rfl, rfl⟩
  | zephyr => exact .inr ⟨rfl, rfl, rfl, rfl⟩

/-- The layout of a toolchain does not depend on the platform that it is for. -/
theorem ToolchainKind.layout_toolchain (kind : ToolchainKind) (platform : Platform) :
    (kind.toolchain platform).layout = (kind.toolchain .auto).layout := by
  cases kind <;> rfl

/-- The paths at which a unit with a toolchain of some kind has artifacts, if the workspace has the
files to be copied. -/
def ToolchainKind.files (kind : ToolchainKind) : List String :=
  let generatedFile := (kind.toolchain .auto).layout.generatedFile
  match kind with
  | .zephyr =>
    [EntryPoint.path, "CMakeLists.txt", generatedFile, Zephyr.kconfigFile] ++ Zephyr.copiedFiles
  | _ => [EntryPoint.path, "CMakeLists.txt", MakeScript.path, generatedFile]

theorem ToolchainKind.nodup_files (kind : ToolchainKind) : kind.files.Nodup := by
  cases kind <;> decide

/-- The paths of the copied workspace files are among the names of those files. -/
theorem Zephyr.paths_copies (workspace : Workspace) :
    ((Zephyr.copies workspace).map Artifact.path).Sublist Zephyr.copiedFiles := by
  unfold Zephyr.copies
  induction Zephyr.copiedFiles with
  | nil => exact List.Sublist.slnil
  | cons file files ih =>
    rw [List.filterMap_cons]
    split
    · exact ih.cons file
    · next artifact h =>
      obtain ⟨content, -, rfl⟩ := Option.map_eq_some_iff.1 h
      exact ih.cons_cons file

namespace PlannedUnit

/-- What the generators of a unit make, in order. -/
def generated (p : PlannedUnit) (s : Setup) (r : Request) : List Artifact :=
  (p.toolchain s r).generators.flatMap fun g => g.artifacts (p.deployment s r)

/-- The generators of a unit make artifacts at the paths of some kind of toolchain. -/
theorem paths_generated (p : PlannedUnit) (s : Setup) (r : Request) :
    ∃ kind : ToolchainKind, ((p.generated s r).map Artifact.path).Sublist kind.files := by
  obtain ⟨kind, hkind⟩ := s.registry.exists_toolchainFor (p.platform r)
  have htoolchain : p.toolchain s r = kind.toolchain ((p.platform r).resolve .auto) := hkind
  have hlayout : (p.deployment s r).layout = (p.toolchain s r).layout := rfl
  refine ⟨kind, ?_⟩
  unfold generated
  rw [htoolchain] at hlayout ⊢
  generalize p.deployment s r = u at hlayout
  cases kind with
  | zephyr =>
    show ([EntryPoint.path, "CMakeLists.txt", u.layout.generatedFile, Zephyr.kconfigFile] ++
      ((Zephyr.copies u.workspace ++ []).map Artifact.path)).Sublist _
    rw [hlayout, ToolchainKind.layout_toolchain, List.append_nil]
    exact (List.Sublist.refl _).append (Zephyr.paths_copies u.workspace)
  | common | freeRtos | espIdf | riot =>
    show List.Sublist
      [EntryPoint.path, "CMakeLists.txt", MakeScript.path, u.layout.generatedFile] _
    rw [hlayout, ToolchainKind.layout_toolchain]
    exact List.Sublist.refl _

/-- The generators of a unit make artifacts at different paths. -/
theorem nodup_paths (p : PlannedUnit) (s : Setup) (r : Request) :
    ((p.generated s r).map Artifact.path).Nodup := by
  obtain ⟨kind, hkind⟩ := p.paths_generated s r
  exact kind.nodup_files.sublist hkind

/-- The artifacts of a unit are what its generators make. -/
theorem artifacts_eq_generated (p : PlannedUnit) (s : Setup) (r : Request) :
    (p.artifacts s r).artifacts = p.generated s r :=
  ArtifactSet.artifacts_ofList (p.nodup_paths s r)

/-- The artifact of a unit at the path of what its generators make is just that. -/
theorem get?_artifacts {p : PlannedUnit} {s : Setup} {r : Request} {a : Artifact}
    (ha : a ∈ p.generated s r) : (p.artifacts s r).get? a.path = some a := by
  refine ArtifactSet.get?_of_mem ?_ (by rwa [p.artifacts_eq_generated])
  rw [ArtifactSet.paths, p.artifacts_eq_generated]
  exact p.nodup_paths s r

section
variable {p : PlannedUnit} {s : Setup} {r : Request}

/-- The entry point of a unit as an artifact. -/
def entryArtifact (p : PlannedUnit) (s : Setup) (r : Request) : Artifact where
  path := EntryPoint.path
  content := ((p.deployment s r).entryPoint (p.toolchain s r).entry).render

theorem generated_of_native {tooling : NativeTooling} {file : String}
    (h : (p.toolchain s r).BuildsNatively tooling file) :
    p.generated s r =
      p.entryArtifact s r :: (NativeBuild.ofTooling tooling).artifacts (p.deployment s r) := by
  rw [generated, h.generators, List.flatMap_cons, List.flatMap_singleton]
  rfl

theorem generated_of_zephyr (h : (p.toolchain s r).BuildsOnZephyr) :
    p.generated s r = p.entryArtifact s r :: Zephyr.artifacts (p.deployment s r) := by
  rw [generated, h.generators, List.flatMap_cons, List.flatMap_singleton]
  rfl

/-- The configuration of a unit is generated into the file that the layout of its toolchain
says. -/
theorem generatedFile_of_layout {layout : ConfigLayout} (h : (p.toolchain s r).layout = layout) :
    (p.deployment s r).layout.generatedFile = layout.generatedFile := by
  rw [deployment, h]

/-- The configuration of a native unit is the composed one with the user's own below. -/
theorem get?_config_of_native {tooling : NativeTooling} {file : String}
    (h : (p.toolchain s r).BuildsNatively tooling file) :
    (p.artifacts s r).get? file =
      some { path := file
             content := Config.mergeOverlay (p.deployment s r).composedConfig (r.workspace file)
               file } := by
  have hfile : (p.deployment s r).layout.generatedFile = file := generatedFile_of_layout h.layout
  have hmem : { path := (p.deployment s r).layout.generatedFile
                content := Config.mergeOverlay (p.deployment s r).composedConfig
                  (r.workspace (p.deployment s r).layout.generatedFile)
                  (p.deployment s r).layout.generatedFile : Artifact } ∈ p.generated s r := by
    rw [generated_of_native h]
    exact .tail _ (.tail _ (.tail _ (.head _)))
  rw [hfile] at hmem
  exact get?_artifacts hmem

/-- The configuration of a unit on Zephyr is composed of its generated layer and that of its
board. -/
theorem get?_config_of_zephyr (h : (p.toolchain s r).BuildsOnZephyr) :
    (p.artifacts s r).get? "prj_lf.conf" =
      some { path := "prj_lf.conf"
             content := Config.compose s.order (Zephyr.generatedConfig (p.deployment s r))
               (p.deployment s r).boardConfig? } := by
  have hfile : (p.deployment s r).layout.generatedFile = "prj_lf.conf" :=
    generatedFile_of_layout h.layout
  have hmem : { path := (p.deployment s r).layout.generatedFile
                content := Config.compose s.order (Zephyr.generatedConfig (p.deployment s r))
                  (p.deployment s r).boardConfig? : Artifact } ∈ p.generated s r := by
    rw [generated_of_zephyr h]
    exact .tail _ (.tail _ (.head _))
  rw [hfile] at hmem
  exact get?_artifacts hmem

/-- The Kconfig file of a unit on Zephyr is that of the worker with the user's own below. -/
theorem get?_kconfig_of_zephyr (h : (p.toolchain s r).BuildsOnZephyr) :
    (p.artifacts s r).get? Zephyr.kconfigFile =
      some { path := Zephyr.kconfigFile
             content := Config.mergeOverlay Kconfig.networkWorker.render
               (r.workspace Zephyr.kconfigFile) Zephyr.kconfigFile } := by
  have hmem : { path := Zephyr.kconfigFile
                content := Config.mergeOverlay Kconfig.networkWorker.render
                  (r.workspace Zephyr.kconfigFile) Zephyr.kconfigFile : Artifact } ∈
      p.generated s r := by
    rw [generated_of_zephyr h]
    exact .tail _ (.tail _ (.tail _ (.head _)))
  exact get?_artifacts hmem

end

end PlannedUnit

end ReactorDeploy
