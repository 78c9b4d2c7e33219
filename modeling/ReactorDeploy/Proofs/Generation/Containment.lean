import ReactorDeploy.Proofs.Files.Writing
import ReactorDeploy.Proofs.Generation.Placement

/-!
# Staying below the output directory

Artifacts are written to where their paths lead from the output directory. What the names of
federates contribute to those paths is checked, and what units are made of is fixed; the name of the
application is taken as it is. So a pass stays below its output directory exactly if that name does
(`artifacts_contained_iff`), and `parent_name_leads_out` has one that does not.
-/

namespace ReactorDeploy

open Files (Path Location Tree)

namespace Manifest

/-- Whether the name of the application leads nowhere but below the output directory. A name of
nothing but slashes does not, but a standalone application drops it. -/
def isContained (m : Manifest) : Bool :=
  (Path.ofString m.name).isContained || (!m.isFederated && Artifact.isSlashes m.name)

variable {m : Manifest} {warnings : List Problem}

/-- The directory of a federate leads out of the output directory if the name of the application
does. -/
theorem isContained_directory (hname : m.name ≠ "") (hcheck : m.check = .ok warnings)
    {f : Federate} (hf : f ∈ m.federates) :
    (Path.ofString ((Role.federate f).directory m.name)).isContained =
      (Path.ofString m.name).isContained := by
  rw [Bool.eq_iff_iff, Path.isContained_iff, Path.isContained_iff, m.absolute_directory hname f,
    m.steps_directory hcheck hf]
  simp

/-- So does the launch script. -/
theorem isContained_script (hname : m.name ≠ "") {a : Artifact} (h : m.script? = some a) :
    (Path.ofString a.path).isContained = (Path.ofString m.name).isContained := by
  rw [Bool.eq_iff_iff, Path.isContained_iff, Path.isContained_iff, m.absolute_script hname h,
    m.steps_script h]
  simp

end Manifest

section
variable {s : Setup} {n : Numbering} {r : Request} {ps : List PlannedUnit}
  {warnings : List Problem}

/-- The artifacts of a pass are all contained, or none of them is. -/
theorem isContained_of_mem_made (hname : r.manifest.name ≠ "")
    (hcheck : r.manifest.check = .ok warnings) (hplanned : r.manifest.Planned n ps) {a : Artifact}
    (ha : a ∈ r.made s ps) :
    (Path.ofString a.path).isContained = r.manifest.isContained := by
  rw [Manifest.isContained]
  rcases List.mem_append.1 ha with hunit | hscript
  · obtain ⟨p, hp, hplaced⟩ := List.mem_flatMap.1 hunit
    obtain ⟨b, hb, rfl⟩ := List.mem_map.1 hplaced
    obtain ⟨hfile, -⟩ := PlannedUnit.isContained_of_mem_generated hb
    rw [Bool.eq_iff_iff, Artifact.isContained_under hfile, hplanned.directory_eq hp]
    rcases hplanned.role_cases hp with ⟨hstandalone, hrole⟩ | ⟨hfederated, f, hf, hrole⟩
    · simp [hrole, hstandalone, Role.directory]
    · rw [hrole, r.manifest.isContained_directory hname hcheck hf,
        r.manifest.isSlashes_directory hcheck hf]
      simp [hfederated]
  · have hscript := Option.mem_toList.1 hscript
    obtain ⟨hfederated, -, -⟩ := Manifest.of_script? hscript
    rw [r.manifest.isContained_script hname hscript]
    simp [hfederated]

/-- The artifacts of a pass have names in their paths. -/
theorem names_of_mem_made {a : Artifact} (ha : a ∈ r.made s ps) :
    (Path.ofString a.path).names ≠ [] := by
  rcases List.mem_append.1 ha with hunit | hscript
  · obtain ⟨p, -, hplaced⟩ := List.mem_flatMap.1 hunit
    obtain ⟨b, hb, rfl⟩ := List.mem_map.1 hplaced
    obtain ⟨-, hnames⟩ := PlannedUnit.isContained_of_mem_generated hb
    rw [Path.names, Artifact.steps_under, List.filterMap_append]
    exact List.append_ne_nil_of_right_ne_nil _ hnames
  · have hscript := Option.mem_toList.1 hscript
    rw [Path.names, r.manifest.steps_script hscript, List.filterMap_append]
    exact List.append_ne_nil_of_right_ne_nil _ (List.cons_ne_nil _ _)

/-- A pass makes something. -/
theorem exists_mem_made (hplanned : r.manifest.Planned n ps) (s : Setup) :
    ∃ a, a ∈ r.made s ps := by
  obtain ⟨p, hp⟩ := List.exists_mem_of_ne_nil ps hplanned.ne_nil
  obtain ⟨b, hb, -⟩ := List.mem_map.1 (p.entryPoint_mem_generated s r)
  have hplaced : b.under p.directory ∈ p.placed s r := List.mem_map_of_mem hb
  exact ⟨_, List.mem_append_left _ (List.mem_flatMap.2 ⟨p, hp, hplaced⟩)⟩

end

/-! ## Staying below -/

/-- **A pass stays below its output directory exactly if the name of the application does.** Over
a manifest that was read and accepted, the paths of all artifacts are relative and never go up if
and only if the name does not lead out; and then, wherever the artifacts are written to, no file
changes that is not below there. -/
theorem artifacts_contained_iff {s : Setup} {n : Numbering} {r : Request} {out : GenerationOutput}
    {text : String} {warnings : List Problem} (hparse : Manifest.parse text = .ok r.manifest)
    (hcheck : r.manifest.check = .ok warnings) (h : (generate s n r).1 = .ok out) :
    ((∀ a ∈ out.artifacts.artifacts, (Path.ofString a.path).isContained = true) ↔
      r.manifest.isContained = true) ∧
    (r.manifest.isContained = true → ∀ (t : Tree) (cwd : Location) (root : String) (l : Location),
      ¬ Files.Below ((Path.ofString root).goal cwd) l →
        (out.artifacts.writeAll t cwd root).2.file? l = t.file? l) := by
  have hname := Manifest.name_ne_empty_of_parse hparse
  obtain ⟨ps, hplanned, rfl⟩ := exists_planned h
  rw [artifacts_ofUnits]
  have hset : ∀ a ∈ (ArtifactSet.ofList (r.made s ps)).artifacts, a ∈ r.made s ps := fun a =>
    ArtifactSet.mem_of_mem_ofList
  refine ⟨⟨fun hall => ?_, fun hcontained a ha => ?_⟩, fun hcontained t cwd root l hl => ?_⟩
  · obtain ⟨a, ha⟩ := exists_mem_made hplanned s
    have hpath := ArtifactSet.mem_paths_ofList.2 (List.mem_map_of_mem ha)
    obtain ⟨b, hb, -⟩ := List.mem_map.1 hpath
    rw [← isContained_of_mem_made hname hcheck hplanned (hset b hb)]
    exact hall b hb
  · rw [isContained_of_mem_made hname hcheck hplanned (hset a ha), hcontained]
  · refine ArtifactSet.file?_writeAll_of_contained (fun a ha => ?_) t cwd root hl
    rw [isContained_of_mem_made hname hcheck hplanned (hset a ha)]
    exact ⟨hcontained, names_of_mem_made (hset a ha)⟩

/-- What lies beside the output directory is not below it. -/
theorem not_below_out :
    ¬ Files.Below ((Path.ofString "out").goal ["work"]) ["work", "lf_main.c"] := by
  rintro ⟨names, -, hbelow⟩
  have hgoal : (Path.ofString "out").goal ["work"] = ["work", "out"] := by decide
  rw [hgoal] at hbelow
  exact absurd (List.cons.inj (List.cons.inj hbelow).2).1 (by decide)

/-- A file beside the output directory stays as it is when an application with a plain name is
written. -/
theorem plain_name_stays_below :
    ∃ out, Manifest.parse "project.name = \"App\"" = .ok (namedRequest "App").manifest ∧
      (generate {} .perPass (namedRequest "App")).1 = .ok out ∧
      (∀ a ∈ out.artifacts.artifacts, (Path.ofString a.path).isContained = true) ∧
      ∀ t : Tree, (out.artifacts.writeAll t ["work"] "out").2.file? ["work", "lf_main.c"] =
        t.file? ["work", "lf_main.c"] := by
  have hparse : Manifest.parse "project.name = \"App\"" = .ok (namedRequest "App").manifest := by
    decide +kernel
  have hout := fst_generate_named {} .perPass "App"
  obtain ⟨hpaths, hfiles⟩ := artifacts_contained_iff hparse (check_named "App") hout
  have hcontained : (namedRequest "App").manifest.isContained = true := by decide
  exact ⟨_, hparse, hout, hpaths.2 hcontained,
    fun t => hfiles hcontained t ["work"] "out" _ not_below_out⟩

/-- A tree with a directory to work in. -/
def workTree : Tree where
  entries := [(["work"], .directory)]

/-- **A name may lead out of the output directory.** A manifest with the name of the directory
above is read and accepted; the paths of its artifacts go up, and written to `out` they come to lie
beside it. -/
theorem parent_name_leads_out :
    ∃ out, Manifest.parse "project.name = \"..\"" = .ok (namedRequest "..").manifest ∧
      (namedRequest "..").manifest.check = .ok [] ∧
      (generate {} .perPass (namedRequest "..")).1 = .ok out ∧
      (∃ a ∈ out.artifacts.artifacts, (Path.ofString a.path).isContained = false) ∧
      ¬ Files.Below ((Path.ofString "out").goal ["work"]) ["work", "lf_main.c"] ∧
      workTree.file? ["work", "lf_main.c"] = none ∧
      (out.artifacts.writeAll workTree ["work"] "out").2.file? ["work", "lf_main.c"] ≠ none := by
  have hparse : Manifest.parse "project.name = \"..\"" = .ok (namedRequest "..").manifest := by
    decide +kernel
  have hwritten : (((GenerationOutput.ofUnits {} (namedRequest "..")
      [(namedRequest "..").manifest.standaloneUnit] none).artifacts.writeAll workTree ["work"]
        "out").2.file? ["work", "lf_main.c"]).isSome = true := by
    decide +kernel
  refine ⟨_, hparse, check_named "..", fst_generate_named {} .perPass "..", by decide +kernel,
    not_below_out, rfl, fun hnone => ?_⟩
  rw [hnone] at hwritten
  cases hwritten

end ReactorDeploy
