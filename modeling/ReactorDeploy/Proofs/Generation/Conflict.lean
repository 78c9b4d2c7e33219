import ReactorDeploy.Proofs.Files.Delivery
import ReactorDeploy.Proofs.Generation.Containment

/-!
# Artifacts in each other's way

The artifacts of one unit never meet, and neither do those of different units, whose federates have
different names. Only the launch script lies in a directory that may be that of a federate, too: the
artifacts of a pass meet exactly if there is a federate of that name one of whose artifacts the
script meets there (`nothing_lost_iff`). Otherwise none is lost, and all of them can be written
into an empty directory. `descriptor_can_be_lost` has a pass that loses the descriptor of a unit.
-/

namespace ReactorDeploy

open Files (Path Step Location Tree)

/-! ## Units -/

/-- The files of a toolchain are never in each other's way. -/
theorem ToolchainKind.pairwise_files (kind : ToolchainKind) :
    kind.files.Pairwise fun file file' =>
      ¬ Step.Overlap (Path.ofString file).route (Path.ofString file').route := by
  cases kind <;> decide

namespace PlannedUnit

/-- Neither is what the generators of a unit make. -/
theorem pairwise_generated (p : PlannedUnit) (s : Setup) (r : Request) :
    (p.generated s r).Pairwise fun a b =>
      ¬ Step.Overlap (Path.ofString a.path).route (Path.ofString b.path).route := by
  obtain ⟨kind, hkind⟩ := p.paths_generated s r
  exact List.pairwise_map.1 (kind.pairwise_files.sublist hkind)

/-- The artifacts of a unit do not meet where they are placed. -/
theorem pairwise_placed (p : PlannedUnit) (s : Setup) (r : Request) :
    (p.placed s r).Pairwise fun a b => ¬ (Path.ofString a.path).Meets (Path.ofString b.path) := by
  refine List.pairwise_map.2 ((p.pairwise_generated s r).imp fun {a b} hapart hmeets => hapart ?_)
  obtain ⟨-, hoverlap⟩ := hmeets
  rwa [Path.route, Path.route, Artifact.steps_under, Artifact.steps_under, List.filter_append,
    List.filter_append, Step.overlap_append] at hoverlap

end PlannedUnit

section
variable {s : Setup} {n : Numbering} {r : Request} {ps : List PlannedUnit}
  {warnings : List Problem}

/-- The way to the launch script goes through the directory for scripts. -/
theorem Manifest.route_script {m : Manifest} {script : Artifact} (h : m.script? = some script) :
    (Path.ofString script.path).route =
      (Path.ofString m.name).route ++ .name "bin" :: (Path.ofString m.name).route := by
  rw [Path.route, m.steps_script h, List.filter_append]
  rfl

/-- The artifacts of different units do not meet. -/
theorem Manifest.Planned.pairwise_units (h : r.manifest.Planned n ps)
    (hcheck : r.manifest.check = .ok warnings) (s : Setup) :
    (ps.flatMap fun p => p.placed s r).Pairwise fun a b =>
      ¬ (Path.ofString a.path).Meets (Path.ofString b.path) := by
  exact List.pairwise_flatMap.2 ⟨fun p _ => p.pairwise_placed s r, h.pairwise_apart hcheck s r⟩

/-! ## The launch script -/

/-- Whether the launch script is in the way of an artifact: it lies in the directory of a federate,
and is there what a file of the federate is, or one of the two would have to be in the other. -/
def Request.Conflict (r : Request) (s : Setup) (ps : List PlannedUnit) : Prop :=
  r.manifest.script?.isSome = true ∧
    ∃ p ∈ ps, p.role.federate?.map Federate.name = some "bin" ∧
      ∃ a ∈ p.generated s r,
        Step.Overlap (Path.ofString a.path).route (Path.ofString r.manifest.name).route

/-- The launch script meets an artifact of a federate exactly if it is in its way. -/
theorem Manifest.Planned.meets_script_iff (h : r.manifest.Planned n ps)
    (hname : r.manifest.name ≠ "") (hcheck : r.manifest.check = .ok warnings) {p : PlannedUnit}
    (hp : p ∈ ps) {script : Artifact} (hscript : r.manifest.script? = some script) (a : Artifact) :
    (Path.ofString (a.under p.directory).path).Meets (Path.ofString script.path) ↔
      p.role.federate?.map Federate.name = some "bin" ∧
        Step.Overlap (Path.ofString a.path).route (Path.ofString r.manifest.name).route := by
  obtain ⟨hfederated, -, -⟩ := Manifest.of_script? hscript
  rcases h.role_cases hp with ⟨hstandalone, -⟩ | ⟨-, f, hf, hrole⟩
  · rw [hfederated] at hstandalone
    cases hstandalone
  have habsolute : (Path.ofString (a.under p.directory).path).absolute =
      (Path.ofString script.path).absolute := by
    rw [h.directory_eq hp, hrole, Artifact.absolute_under (r.manifest.isSlashes_directory hcheck hf),
      r.manifest.absolute_directory hname, r.manifest.absolute_script hname hscript]
  rw [Path.Meets, h.route_placed hcheck hp hf hrole, r.manifest.route_script hscript,
    Step.overlap_append, Step.overlap_name, hrole]
  simp [habsolute, Role.federate?]

/-- The artifacts of a pass meet exactly if the launch script is in the way of one. -/
theorem Manifest.Planned.pairwise_made_iff (h : r.manifest.Planned n ps)
    (hname : r.manifest.name ≠ "") (hcheck : r.manifest.check = .ok warnings) (s : Setup) :
    ((r.made s ps).Pairwise fun a b => ¬ (Path.ofString a.path).Meets (Path.ofString b.path)) ↔
      ¬ r.Conflict s ps := by
  rw [Request.made, List.pairwise_append]
  constructor
  · rintro ⟨-, -, hcross⟩ ⟨hsome, p, hp, hbin, a, ha, hoverlap⟩
    obtain ⟨script, hscript⟩ := Option.isSome_iff_exists.1 hsome
    refine hcross (a.under p.directory) ?_ script (Option.mem_toList.2 hscript) ?_
    · exact List.mem_flatMap.2 ⟨p, hp, List.mem_map_of_mem ha⟩
    · exact (h.meets_script_iff hname hcheck hp hscript a).2 ⟨hbin, hoverlap⟩
  · refine fun hnone => ⟨h.pairwise_units hcheck s, ?_, fun a ha script hscript hmeets => ?_⟩
    · cases r.manifest.script? with
      | none => exact List.Pairwise.nil
      | some script => exact List.pairwise_singleton _ _
    · have hscript := Option.mem_toList.1 hscript
      obtain ⟨p, hp, hplaced⟩ := List.mem_flatMap.1 ha
      obtain ⟨b, hb, rfl⟩ := List.mem_map.1 hplaced
      obtain ⟨hbin, hoverlap⟩ := (h.meets_script_iff hname hcheck hp hscript b).1 hmeets
      exact hnone ⟨Option.isSome_iff_exists.2 ⟨script, hscript⟩, p, hp, hbin, b, hb, hoverlap⟩

/-- What a pass makes has a name for a file, if the name of the application ends in one where there
is a launch script. -/
theorem endsInName_of_mem_made (hcontained : r.manifest.isContained = true)
    (hends : ∀ script ∈ r.manifest.script?, (Path.ofString r.manifest.name).EndsInName)
    {a : Artifact} (ha : a ∈ r.made s ps) : (Path.ofString a.path).EndsInName := by
  rcases List.mem_append.1 ha with hunit | hscript
  · obtain ⟨p, -, hplaced⟩ := List.mem_flatMap.1 hunit
    obtain ⟨b, hb, rfl⟩ := List.mem_map.1 hplaced
    obtain ⟨kind, hkind⟩ := PlannedUnit.exists_mem_files hb
    have hfiles : ∀ file ∈ kind.files, (Path.ofString file).EndsInName := by
      cases kind <;> decide
    obtain ⟨hfile, -⟩ := PlannedUnit.isContained_of_mem_generated hb
    cases hslashes : Artifact.isSlashes p.directory with
    | true =>
      rw [Artifact.under_of_isSlashes hslashes]
      exact hfiles _ hkind
    | false =>
      rw [Artifact.path_under hslashes]
      exact Path.endsInName_append_slash _ (Path.isContained_iff.1 hfile).1 (hfiles _ hkind)
  · have hscript := Option.mem_toList.1 hscript
    obtain ⟨hfederated, -, hpath⟩ := Manifest.of_script? hscript
    rw [Manifest.isContained, hfederated, Bool.not_true, Bool.false_and, Bool.or_false] at hcontained
    obtain ⟨hrelative, -⟩ := Path.isContained_iff.1 hcontained
    have hfile : r.manifest.launchScript.path = "bin" ++ "/" ++ r.manifest.name := rfl
    have hbin := Path.endsInName_append_slash "bin" hrelative (hends a hscript)
    rw [hpath, hfile]
    refine Path.endsInName_append_slash _ ?_ hbin
    rw [String.append_assoc, Path.absolute_append (by decide)]
    rfl

end

/-! ## A federation of two -/

/-- A request to generate a federation of two on one host, one of whose federates is called like
the directory of the launch script. -/
def pairRequest (name : String) : Request where
  manifest := { name, federates := [{ name := "bin", ordinal := some 0 },
    { name := "b", ordinal := some 1 }] }
  workspace := Workspace.empty
  outputRoot := "out"

/-- The units of the federation. -/
def pairUnits (name : String) : List PlannedUnit :=
  (pairRequest name).manifest.federates.map fun f => .ofFederate name f .loopback

theorem check_pair (name : String) : (pairRequest name).manifest.check = .ok [] := by
  have hproblems : (pairRequest name).manifest.problems = [] := by
    show Manifest.nameProblems [] ["bin", "b"] = []
    decide +kernel
  refine Manifest.check_eq_ok_iff.2 ⟨hproblems.symm, ?_⟩
  rw [hproblems]
  exact nofun

/-- Its federates are in order already. -/
theorem orderedFederates_pair (name : String) :
    (pairRequest name).manifest.orderedFederates = (pairRequest name).manifest.federates :=
  Manifest.orderedFederates_eq_self (show List.Pairwise _ [_, _] by decide +kernel)

theorem federationUnits_pair (name : String) (a : Net.Allocator) :
    ((pairRequest name).manifest.federationUnits a).1 = .ok (pairUnits name) := by
  rw [Manifest.federationUnits_of_not_isConstrained rfl, orderedFederates_pair]
  rfl

theorem generate_pair (name : String) :
    (generate {} .perPass (pairRequest name)).1 =
      .ok (.ofUnits {} (pairRequest name) (pairUnits name)
        (pairRequest name).manifest.script?) := by
  rw [fst_generate_of_allocator rfl rfl, federationUnits_pair]
  rfl

/-- A pass over it generates these units. -/
theorem eq_pairUnits {name : String} {ps : List PlannedUnit}
    (h : (pairRequest name).manifest.Planned .perPass ps) : ps = pairUnits name := by
  cases h with
  | standalone hstandalone => cases hstandalone
  | federation _ _ hps =>
    rw [federationUnits_pair] at hps
    exact (Except.ok.inj hps).symm

instance (r : Request) (s : Setup) (ps : List PlannedUnit) : Decidable (r.Conflict s ps) :=
  inferInstanceAs (Decidable (_ ∧ _))

/-! ## Nothing is lost -/

/-- **When a pass loses nothing.** Over a manifest that was read and accepted, the artifacts of a
pass are everything that its units and the launch script come to, each with its own content, and no
two of them meet, if and only if the launch script is in the way of none of them. Then they can all
be written into an empty directory, below which the name of the application stays, if the paths
are such as an operating system takes and that of the launch script ends in a name. -/
theorem nothing_lost_iff {s : Setup} {n : Numbering} {r : Request} {out : GenerationOutput}
    {text : String} {warnings : List Problem} (hparse : Manifest.parse text = .ok r.manifest)
    (hcheck : r.manifest.check = .ok warnings) (h : (generate s n r).1 = .ok out) :
    ∃ ps, r.manifest.Planned n ps ∧ out.units = ps.map (fun p => p.report s r) ∧
      (out.artifacts.artifacts = r.made s ps ∧ (r.made s ps).Pairwise (fun a b =>
          ¬ (Path.ofString a.path).Meets (Path.ofString b.path)) ↔ ¬ r.Conflict s ps) ∧
      (¬ r.Conflict s ps → r.manifest.isContained = true →
        (∀ script ∈ r.manifest.script?, (Path.ofString r.manifest.name).EndsInName) →
        ∀ (t : Tree) (cwd : Location) (root : String), Files.EmptyAt t cwd root →
          (∀ a ∈ r.made s ps, (Path.ofString (Path.join root a.path)).Fits) →
          ∃ t', out.artifacts.writeAll t cwd root =
              (.ok ((r.made s ps).map fun a => Path.join root a.path), t') ∧
            ∀ a ∈ r.made s ps, t'.file? ((Path.ofString root).goal cwd ++ a.names) =
              some ⟨a.content.toUTF8, a.executable⟩) := by
  have hname := Manifest.name_ne_empty_of_parse hparse
  obtain ⟨ps, hplanned, rfl⟩ := exists_planned h
  have hmeets := hplanned.pairwise_made_iff hname hcheck s
  have hset : ¬ r.Conflict s ps →
      (GenerationOutput.ofUnits s r ps r.manifest.script?).artifacts = ⟨r.made s ps⟩ := fun hnone => by
    rw [artifacts_ofUnits]
    refine congrArg ArtifactSet.mk (ArtifactSet.artifacts_ofList ?_)
    refine List.pairwise_map.2 ((hmeets.2 hnone).imp fun {a b} hapart heq => hapart ?_)
    rw [heq]
    exact Path.meets_self _
  refine ⟨ps, hplanned, GenerationOutput.units_ofUnits s r ps _, ⟨fun hall => hmeets.1 hall.2,
    fun hnone => ⟨congrArg ArtifactSet.artifacts (hset hnone), hmeets.2 hnone⟩⟩, ?_⟩
  intro hnone hcontained hends t cwd root hempty hfits
  rw [hset hnone]
  refine ArtifactSet.exists_writeAll hempty (fun a ha => ⟨?_, ?_, hfits a ha⟩) (hmeets.2 hnone)
  · rw [isContained_of_mem_made hname hcheck hplanned ha, hcontained]
  · exact endsInName_of_mem_made hcontained hends ha

/-- A tree with an empty output directory. -/
def outTree : Tree where
  entries := [(["work"], .directory), (["work", "out"], .directory)]

theorem emptyAt_outTree : Files.EmptyAt outTree ["work"] "out" where
  closed := by
    refine Files.Tree.closed_of_entries ?_
    simp only [outTree, List.forall_mem_cons]
    exact ⟨rfl, rfl, nofun⟩
  reached := by decide +kernel
  directory := rfl
  empty n := by
    have hgoal : (Path.ofString "out").goal ["work"] = ["work", "out"] := by decide
    rw [hgoal]
    rfl

/-- A federate may be called like the directory of the launch script as long as the application
has not the name of a file: everything is there and can be written. -/
theorem plain_pair_is_written :
    ∃ out, Manifest.parse ("project.name = \"App\"\n" ++
        "[[federates]]\nname = \"bin\"\n[[federates]]\nname = \"b\"") =
          .ok (pairRequest "App").manifest ∧
      (generate {} .perPass (pairRequest "App")).1 = .ok out ∧
      out.artifacts.artifacts = (pairRequest "App").made {} (pairUnits "App") ∧
      ∃ paths t', out.artifacts.writeAll outTree ["work"] "out" = (.ok paths, t') := by
  have hparse : Manifest.parse ("project.name = \"App\"\n" ++
      "[[federates]]\nname = \"bin\"\n[[federates]]\nname = \"b\"") =
        .ok (pairRequest "App").manifest := by
    decide +kernel
  have hout := generate_pair "App"
  obtain ⟨ps, hplanned, -, hiff, hwrite⟩ := nothing_lost_iff hparse (check_pair "App") hout
  obtain rfl := eq_pairUnits hplanned
  have hnone : ¬ (pairRequest "App").Conflict {} (pairUnits "App") := by decide +kernel
  have hcontained : (pairRequest "App").manifest.isContained = true := by decide
  have hends : (Path.ofString (pairRequest "App").manifest.name).EndsInName := by decide
  have hfits : ∀ a ∈ (pairRequest "App").made {} (pairUnits "App"),
      (Path.ofString (Path.join "out" a.path)).Fits := by
    decide +kernel
  obtain ⟨t', hwritten, -⟩ := hwrite hnone hcontained (fun _ _ => hends) outTree ["work"] "out"
    emptyAt_outTree hfits
  exact ⟨_, hparse, hout, (hiff.2 hnone).1, _, t', hwritten⟩

/-- **The descriptor of a unit can be lost.** A federation with the name of the descriptor and a
federate called like the directory of the launch script is read and accepted. Its launch script
takes the place of the descriptor of that federate, which none of its artifacts is any more. -/
theorem descriptor_can_be_lost :
    ∃ out, Manifest.parse ("project.name = \"CMakeLists.txt\"\n" ++
        "[[federates]]\nname = \"bin\"\n[[federates]]\nname = \"b\"") =
          .ok (pairRequest "CMakeLists.txt").manifest ∧
      (pairRequest "CMakeLists.txt").manifest.check = .ok [] ∧
      (generate {} .perPass (pairRequest "CMakeLists.txt")).1 = .ok out ∧
      ∃ p ∈ pairUnits "CMakeLists.txt", ∃ a ∈ p.placed {} (pairRequest "CMakeLists.txt"),
        a.path = "CMakeLists.txt/bin/CMakeLists.txt" ∧ a ∉ out.artifacts.artifacts := by
  have hparse : Manifest.parse ("project.name = \"CMakeLists.txt\"\n" ++
      "[[federates]]\nname = \"bin\"\n[[federates]]\nname = \"b\"") =
        .ok (pairRequest "CMakeLists.txt").manifest := by
    decide +kernel
  have hplaced : ∃ p ∈ pairUnits "CMakeLists.txt",
      ∃ a ∈ p.placed {} (pairRequest "CMakeLists.txt"),
        a.path = "CMakeLists.txt/bin/CMakeLists.txt" ∧ a.executable = false := by
    decide +kernel
  have hset : ∀ a ∈ (GenerationOutput.ofUnits {} (pairRequest "CMakeLists.txt")
      (pairUnits "CMakeLists.txt") (pairRequest "CMakeLists.txt").manifest.script?).artifacts.artifacts,
      a.path = "CMakeLists.txt/bin/CMakeLists.txt" → a.executable = true := by
    decide +kernel
  obtain ⟨p, hp, a, ha, hpath, hexecutable⟩ := hplaced
  refine ⟨_, hparse, check_pair _, generate_pair _, p, hp, a, ha, hpath, fun hmem => ?_⟩
  rw [hset a hmem hpath] at hexecutable
  cases hexecutable

end ReactorDeploy
