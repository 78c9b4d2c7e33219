import ReactorDeploy.Proofs.Generation.Placement
import ReactorDeploy.Report

/-!
# What units list

A unit lists its artifacts at paths put together from its directory as it is, and the artifacts are
placed below that directory without the slashes at its end. The two agree unless there are such
slashes, which is only ever so for a standalone application (`units_list_artifacts_iff`); one whose
name ends in a slash lists paths at which there is nothing (`slash_name_lists_nothing_there`).
-/

namespace ReactorDeploy

open Files (Path)

/-- Whether what units list is there, and what is there, the launch script apart, is listed by
exactly one unit. -/
def ListedOnce (units : List GeneratedUnit) (paths : List String) (script? : Option String) :
    Prop :=
  (∀ u ∈ units, ∀ path ∈ u.artifacts, path ∈ paths) ∧
  ∀ path ∈ paths, script? ≠ some path → units.countP (fun u => u.artifacts.contains path) = 1

/-! ## Directories without a slash at the end -/

/-- A text that does not end in a slash keeps its end. -/
theorem Artifact.stripEnd_eq_self {directory : String}
    (h : directory.toList.getLast? ≠ some '/') : Text.stripEnd (· == '/') directory = directory := by
  have hstops : Text.Stops (· == '/') directory.toList.reverse := by
    intro c hc
    rw [List.head?_reverse] at hc
    rw [beq_eq_false_iff_ne]
    rintro rfl
    exact h hc
  rw [Text.stripEnd, Text.dropTail_eq_self hstops, String.ofList_toList]

/-- Below a directory that does not end in a slash, an artifact is where it is listed. -/
theorem Artifact.path_under_of_getLast? {directory : String} (hne : directory ≠ "")
    (h : directory.toList.getLast? ≠ some '/') (a : Artifact) :
    (a.under directory).path = directory ++ "/" ++ a.path := by
  have hslashes : isSlashes directory = false := by
    rw [← Bool.not_eq_true, ← stripEnd_eq_empty_iff, stripEnd_eq_self h]
    exact hne
  rw [path_under hslashes, stripEnd_eq_self h]

/-- The directory of a federate does not end in a slash. -/
theorem Manifest.getLast?_directory {m : Manifest} {warnings : List Problem}
    (hcheck : m.check = .ok warnings) {f : Federate} (hf : f ∈ m.federates) :
    ((Role.federate f).directory m.name).toList.getLast? ≠ some '/' := by
  obtain ⟨hblank, hcomponent⟩ := isSinglePathComponent_of_check hcheck hf
  obtain ⟨hslash, -, -⟩ := of_isSinglePathComponent hcomponent
  have hne : f.name.toList ≠ [] := fun h => ne_empty_of_allBlank hblank (String.toList_inj.1 h)
  rw [Role.directory, String.toList_append, List.getLast?_append_of_ne_nil _ hne]
  exact fun hlast => hslash (List.mem_of_getLast? hlast)

/-- Slashes before a slash start with one. -/
theorem head?_slashes {cs : List Char} (h : ∀ c ∈ cs, c = '/') (ds : List Char) :
    (cs ++ '/' :: ds).head? = some '/' := by
  cases cs with
  | nil => rfl
  | cons c cs => rw [List.cons_append, List.head?_cons, h c (.head _)]

/-- Below a directory that ends in a slash, no artifact is where one is listed. -/
theorem Artifact.path_under_ne {directory : String} (h : directory.toList.getLast? = some '/')
    {a : Artifact} (ha : (Path.ofString a.path).isContained = true) (file : String) :
    (a.under directory).path ≠ directory ++ "/" ++ file := by
  intro heq
  obtain ⟨hrelative, -⟩ := Path.isContained_iff.1 ha
  rw [Path.absolute_ofString, beq_eq_false_iff_ne] at hrelative
  obtain ⟨cs, hcs, hslashes⟩ := Text.exists_stripEnd_append (· == '/') directory
  have hslashes : ∀ c ∈ cs, c = '/' := fun c hc => by simpa using hslashes c hc
  have hpath := congrArg String.toList heq
  rw [String.toList_append, String.toList_append, hcs] at hpath
  apply hrelative
  cases hall : isSlashes directory with
  | true =>
    rw [under_of_isSlashes hall, stripEnd_eq_empty_iff.2 hall] at hpath
    rw [hpath, List.append_assoc]
    exact head?_slashes hslashes file.toList
  | false =>
    rw [path_under hall, String.toList_append, String.toList_append, List.append_assoc,
      List.append_assoc, List.append_assoc] at hpath
    have hrest : '/' :: a.path.toList = cs ++ '/' :: file.toList := List.append_cancel_left hpath
    cases cs with
    | nil =>
      -- the directory would keep the slash at its end
      rw [List.append_nil] at hcs
      have hstops := Text.stops_reverse_dropTail (· == '/') directory.toList
      rw [Text.stripEnd, String.toList_ofList] at hcs
      rw [← hcs] at hstops
      exact absurd (hstops '/' (by rw [List.head?_reverse, h]; rfl)) (by decide)
    | cons c cs =>
      rw [(List.cons.inj hrest).2]
      exact head?_slashes (fun d hd => hslashes d (.tail _ hd)) file.toList

/-! ## Units and what they list -/

/-- Where a directory does not end in a slash, its unit lists what is placed below it. -/
theorem PlannedUnit.artifacts_report {p : PlannedUnit} (hne : p.directory ≠ "")
    (h : p.directory.toList.getLast? ≠ some '/') (s : Setup) (r : Request) :
    (p.report s r).artifacts = (p.placed s r).map Artifact.path := by
  show (p.artifacts s r).paths.map _ = _
  rw [ArtifactSet.paths, p.artifacts_eq_generated, placed, List.map_map, List.map_map]
  refine List.map_congr_left fun a _ => ?_
  exact (Artifact.path_under_of_getLast? hne h a).symm

/-- Exactly one element has a property if one has it and no two have. -/
theorem countP_eq_one {α : Type} {q : α → Bool} {xs : List α}
    (hpairwise : xs.Pairwise fun x y => ¬ (q x = true ∧ q y = true)) {x : α} (hx : x ∈ xs)
    (hq : q x = true) : xs.countP q = 1 := by
  induction xs with
  | nil => cases hx
  | cons y ys ih =>
    obtain ⟨hy, hys⟩ := List.pairwise_cons.1 hpairwise
    cases hqy : q y with
    | true =>
      have hnone : ys.countP q = 0 := List.countP_eq_zero.2 fun z hz hqz => hy z hz ⟨hqy, hqz⟩
      rw [List.countP_cons_of_pos hqy, hnone]
    | false =>
      rw [List.countP_cons_of_neg (by rw [hqy]; nofun)]
      rcases List.mem_cons.1 hx with rfl | hx
      · rw [hqy] at hq
        cases hq
      · exact ih hys hx

section
variable {s : Setup} {n : Numbering} {r : Request} {ps : List PlannedUnit}
  {warnings : List Problem}

/-- No path is placed by two units. -/
theorem Manifest.Planned.pairwise_placed (h : r.manifest.Planned n ps)
    (hcheck : r.manifest.check = .ok warnings) (s : Setup) (path : String) :
    ps.Pairwise fun p q => ¬ (path ∈ (p.placed s r).map Artifact.path ∧
      path ∈ (q.placed s r).map Artifact.path) := by
  refine (h.pairwise_apart hcheck s r).imp fun {p q} hapart ⟨hp, hq⟩ => ?_
  obtain ⟨a, ha, hapath⟩ := List.mem_map.1 hp
  obtain ⟨b, hb, hbpath⟩ := List.mem_map.1 hq
  have hmeets := hapart a ha b hb
  rw [hapath, hbpath] at hmeets
  exact hmeets (Path.meets_self _)

/-- Every unit has a directory. -/
theorem Manifest.Planned.directory_ne_empty (h : r.manifest.Planned n ps)
    (hname : r.manifest.name ≠ "") {p : PlannedUnit} (hp : p ∈ ps) : p.directory ≠ "" := by
  rw [h.directory_eq hp]
  cases p.role with
  | standalone => exact hname
  | federate f =>
    rw [Role.directory, Ne, ← String.toList_inj]
    simp

/-- The directory of a unit does not end in a slash, unless it is that of a standalone application
whose name does. -/
theorem Manifest.Planned.getLast?_directory (h : r.manifest.Planned n ps)
    (hcheck : r.manifest.check = .ok warnings)
    (hlast : r.manifest.isFederated = true ∨ r.manifest.name.toList.getLast? ≠ some '/')
    {p : PlannedUnit} (hp : p ∈ ps) : p.directory.toList.getLast? ≠ some '/' := by
  rw [h.directory_eq hp]
  rcases h.role_cases hp with ⟨hstandalone, hrole⟩ | ⟨-, f, hf, hrole⟩
  · rw [hrole]
    exact hlast.resolve_left (by rw [hstandalone]; nofun)
  · rw [hrole]
    exact r.manifest.getLast?_directory hcheck hf

/-- Nothing that a standalone application makes is where it is listed if its name ends in a
slash. -/
theorem notMem_paths_made (hstandalone : r.manifest.isFederated = false)
    (hlast : r.manifest.name.toList.getLast? = some '/') (s : Setup) (file : String) :
    r.manifest.name ++ "/" ++ file ∉
      (r.made s [r.manifest.standaloneUnit]).map Artifact.path := by
  intro hmem
  have hscript : r.manifest.script? = none := by
    rw [Manifest.script?, hstandalone]
    rfl
  rw [Request.made, hscript] at hmem
  simp only [List.flatMap_cons, List.flatMap_nil, Option.toList_none, List.append_nil] at hmem
  obtain ⟨a, ha, hpath⟩ := List.mem_map.1 hmem
  obtain ⟨b, hb, rfl⟩ := List.mem_map.1 ha
  obtain ⟨hcontained, -⟩ := PlannedUnit.isContained_of_mem_generated hb
  exact Artifact.path_under_ne hlast hcontained file hpath

/-- If no directory ends in a slash, units list what is there, and what is there is listed once. -/
theorem Manifest.Planned.listedOnce (h : r.manifest.Planned n ps) (hname : r.manifest.name ≠ "")
    (hcheck : r.manifest.check = .ok warnings)
    (hlast : r.manifest.isFederated = true ∨ r.manifest.name.toList.getLast? ≠ some '/')
    (s : Setup) :
    ListedOnce (ps.map fun p => p.report s r) ((r.made s ps).map Artifact.path)
      (r.manifest.script?.map Artifact.path) := by
  have hlisted : ∀ p ∈ ps, (p.report s r).artifacts = (p.placed s r).map Artifact.path :=
    fun p hp => PlannedUnit.artifacts_report (h.directory_ne_empty hname hp)
      (h.getLast?_directory hcheck hlast hp) s r
  refine ⟨fun u hu path hpath => ?_, fun path hpath hscript => ?_⟩
  · obtain ⟨p, hp, rfl⟩ := List.mem_map.1 hu
    rw [hlisted p hp] at hpath
    obtain ⟨a, ha, rfl⟩ := List.mem_map.1 hpath
    exact List.mem_map_of_mem (List.mem_append_left _ (List.mem_flatMap.2 ⟨p, hp, ha⟩))
  · obtain ⟨a, ha, rfl⟩ := List.mem_map.1 hpath
    rcases List.mem_append.1 ha with hunit | ha
    · obtain ⟨p, hp, hplaced⟩ := List.mem_flatMap.1 hunit
      rw [List.countP_map]
      refine countP_eq_one ?_ hp (List.contains_iff_mem.2 ?_)
      · refine (h.pairwise_placed hcheck s a.path).imp_of_mem
          fun {p q} hp hq hboth ⟨hpa, hqa⟩ => hboth ⟨?_, ?_⟩
        · rw [← hlisted p hp]
          exact List.contains_iff_mem.1 hpa
        · rw [← hlisted q hq]
          exact List.contains_iff_mem.1 hqa
      · rw [hlisted p hp]
        exact List.mem_map_of_mem hplaced
    · rw [Option.mem_toList.1 ha] at hscript
      exact absurd rfl hscript

/-- A standalone application whose name ends in a slash lists what is not there. -/
theorem not_listedOnce (hstandalone : r.manifest.isFederated = false)
    (hlast : r.manifest.name.toList.getLast? = some '/') (h : r.manifest.Planned n ps) (s : Setup)
    (script? : Option String) :
    ¬ ListedOnce (ps.map fun p => p.report s r) ((r.made s ps).map Artifact.path) script? := by
  rintro ⟨hthere, -⟩
  cases h with
  | federation hfederated =>
    rw [hstandalone] at hfederated
    cases hfederated
  | standalone =>
    let p := r.manifest.standaloneUnit
    have hentry : r.manifest.name ++ "/" ++ EntryPoint.path ∈ (p.report s r).artifacts := by
      refine List.mem_map_of_mem (f := fun path => r.manifest.name ++ "/" ++ path) ?_
      rw [ArtifactSet.paths, p.artifacts_eq_generated]
      exact p.entryPoint_mem_generated s r
    exact notMem_paths_made hstandalone hlast s _ (hthere _ (.head _) _ hentry)

end

/-! ## Listed once -/

/-- Being listed once is a matter of which paths there are. -/
theorem listedOnce_congr {units : List GeneratedUnit} {paths paths' : List String}
    {script? : Option String} (h : ∀ path, path ∈ paths ↔ path ∈ paths') :
    ListedOnce units paths script? ↔ ListedOnce units paths' script? := by
  simp only [ListedOnce, h]

/-- **When units list what there is.** Over a manifest that was read and accepted, the units of a
pass list artifacts that there are, and every artifact but the launch script is listed by exactly
one of them, if and only if the manifest is that of a federation or its name does not end in a
slash. The report of the pass shows the same. -/
theorem units_list_artifacts_iff {s : Setup} {n : Numbering} {r : Request}
    {out : GenerationOutput} {text : String} {warnings : List Problem}
    (hparse : Manifest.parse text = .ok r.manifest) (hcheck : r.manifest.check = .ok warnings)
    (h : (generate s n r).1 = .ok out) :
    (ListedOnce out.units out.artifacts.paths (r.manifest.script?.map Artifact.path) ↔
      r.manifest.isFederated = true ∨ r.manifest.name.toList.getLast? ≠ some '/') ∧
    ∀ project, (Report.ofOutput project out).units = out.units ∧
      (Report.ofOutput project out).artifacts.map ReportedArtifact.path = out.artifacts.paths := by
  refine ⟨?_, fun project => ⟨rfl, List.map_map⟩⟩
  have hname := Manifest.name_ne_empty_of_parse hparse
  obtain ⟨ps, hplanned, rfl⟩ := exists_planned h
  have hpaths : ∀ path,
      path ∈ (GenerationOutput.ofUnits s r ps r.manifest.script?).artifacts.paths ↔
        path ∈ (r.made s ps).map Artifact.path := fun path => by
    rw [artifacts_ofUnits, ArtifactSet.mem_paths_ofList]
  rw [GenerationOutput.units_ofUnits, listedOnce_congr hpaths]
  refine ⟨fun hlisted => ?_, fun hlast => hplanned.listedOnce hname hcheck hlast s⟩
  by_contra hcontra
  rw [not_or, Bool.not_eq_true, not_ne_iff] at hcontra
  exact not_listedOnce hcontra.1 hcontra.2 hplanned s _ hlisted

/-- An application with a plain name lists each of its artifacts once. -/
theorem plain_name_lists_artifacts :
    ∃ out, Manifest.parse "project.name = \"App\"" = .ok (namedRequest "App").manifest ∧
      (generate {} .perPass (namedRequest "App")).1 = .ok out ∧
      ListedOnce out.units out.artifacts.paths none := by
  have hparse : Manifest.parse "project.name = \"App\"" = .ok (namedRequest "App").manifest := by
    decide +kernel
  have hout := fst_generate_named {} .perPass "App"
  obtain ⟨hlisted, -⟩ := units_list_artifacts_iff hparse (check_named "App") hout
  exact ⟨_, hparse, hout, hlisted.2 (.inr (by decide))⟩

/-- **A unit may list artifacts that are not there.** A manifest with a name that ends in a slash
is read and accepted, and its unit lists the entry point with one slash too many. -/
theorem slash_name_lists_nothing_there :
    ∃ out, Manifest.parse "project.name = \"App/\"" = .ok (namedRequest "App/").manifest ∧
      (namedRequest "App/").manifest.check = .ok [] ∧
      (generate {} .perPass (namedRequest "App/")).1 = .ok out ∧
      (∃ u ∈ out.units, "App//lf_main.c" ∈ u.artifacts) ∧
      "App//lf_main.c" ∉ out.artifacts.paths ∧ "App/lf_main.c" ∈ out.artifacts.paths ∧
      ∀ u ∈ out.units, "App/lf_main.c" ∉ u.artifacts := by
  have hparse : Manifest.parse "project.name = \"App/\"" = .ok (namedRequest "App/").manifest := by
    decide +kernel
  refine ⟨_, hparse, check_named "App/", fst_generate_named {} .perPass "App/", ?_⟩
  decide +kernel

end ReactorDeploy
