import ReactorDeploy.Proofs.Federation.Artifacts
import ReactorDeploy.Proofs.Files.Path
import ReactorDeploy.Proofs.Text.Scan

/-!
# The user's files

A unit takes in some files of the workspace. Those that have a generated text of their own are laid
over it (`LaidOver`), the others are copied. Either way nothing of them is lost or changed, whatever
toolchain the unit has (`overlays_kept`).
-/

namespace ReactorDeploy

/-! ## Laying a file over a text -/

/-- What trimming takes off the end of a text is blank, and it leaves no blank there. -/
theorem Text.exists_trimEnd_append (s : String) :
    ∃ blanks, s = Text.trimEnd s ++ blanks ∧ Text.allBlank blanks = true ∧
      ∀ c ∈ (Text.trimEnd s).toList.getLast?, Text.isBlank c = false := by
  obtain ⟨cs, hs, hcs⟩ := Text.exists_stripEnd_append Text.isBlank s
  refine ⟨String.ofList cs, ?_, ?_, fun c hc => ?_⟩
  · rw [← String.toList_inj, String.toList_append, String.toList_ofList]
    exact hs
  · rw [Text.allBlank, String.toList_ofList, List.all_eq_true]
    exact hcs
  · rw [Text.trimEnd, Text.stripEnd, String.toList_ofList, ← List.head?_reverse] at hc
    exact Text.stops_reverse_dropTail Text.isBlank s.toList c hc

namespace Config

/-- Which text comes of a generated one and the user's file of a name. -/
inductive LaidOver (file generated : String) : Option String → String → Prop where
  /-- Without a file, and with a blank one, the text stays as it is. -/
  | unchanged {overlay : Option String} :
      (∀ text ∈ overlay, Text.allBlank text = true) → LaidOver file generated overlay generated
  /-- Any other file comes below the text, which loses the blanks at its end, and below a notice
  with the name of the file. It stays as it is but for a line feed at its end, if it has none. -/
  | below {body blanks overlay : String} :
      generated = body ++ blanks → Text.allBlank blanks = true →
      (∀ c ∈ body.toList.getLast?, Text.isBlank c = false) →
      Text.allBlank overlay = false →
      LaidOver file generated (some overlay)
        (body ++
          ("\n\n# ---- User-provided " ++ file ++ " overlay ----\n" ++
            "# Copied verbatim from the workspace. Edit the workspace file instead;\n" ++
            "# hand-edits to the generated section above are lost on regeneration.\n") ++
          overlay ++
          if overlay.toList.getLast? = some '\n' then "" else "\n")

theorem laidOver_mergeOverlay (generated : String) (overlay : Option String) (file : String) :
    LaidOver file generated overlay (mergeOverlay generated overlay file) := by
  unfold mergeOverlay
  cases heffective : effectiveOverlay? overlay with
  | none =>
    refine .unchanged fun text htext => ?_
    rw [Option.mem_def.1 htext] at heffective
    simpa [effectiveOverlay?] using heffective
  | some text =>
    obtain ⟨hoverlay, hblank⟩ := Option.filter_eq_some_iff.1 heffective
    obtain ⟨blanks, hgenerated, hblanks, hlast⟩ := Text.exists_trimEnd_append generated
    rw [hoverlay]
    exact .below hgenerated hblanks hlast (by simpa using hblank)

/-- A no-break space is taken off the end of the generated text, but not off the user's. -/
example : mergeOverlay "A=1\n\u00a0" (some "\u00a0B=2") "lf.conf" =
    "A=1\n\n# ---- User-provided lf.conf overlay ----\n" ++
      "# Copied verbatim from the workspace. Edit the workspace file instead;\n" ++
      "# hand-edits to the generated section above are lost on regeneration.\n" ++
      "\u00a0B=2\n" := by
  decide +kernel

end Config

open Config (LaidOver laidOver_mergeOverlay mergeOverlay)

/-! ## The files of a unit -/

/-- The request with another workspace. -/
def Request.inWorkspace (r : Request) (w : Workspace) : Request :=
  { r with workspace := w }

/-- A file of the workspace that Zephyr reads is among the copies. -/
theorem Zephyr.mem_copies {workspace : Workspace} {file content : String}
    (hfile : file ∈ copiedFiles) (h : workspace file = some content) :
    { path := file, content : Artifact } ∈ copies workspace :=
  List.mem_filterMap.2 ⟨file, hfile, by rw [h]; rfl⟩

/-- A copy is that of a file of the workspace. -/
theorem Zephyr.workspace_of_mem_copies {workspace : Workspace} {a : Artifact}
    (h : a ∈ copies workspace) : workspace a.path = some a.content := by
  obtain ⟨file, -, hfile⟩ := List.mem_filterMap.1 h
  obtain ⟨content, hcontent, rfl⟩ := Option.map_eq_some_iff.1 hfile
  exact hcontent

namespace PlannedUnit

variable {p : PlannedUnit} {s : Setup} {r : Request}

/-- The unit lays the user's file of a name over the text that it has there in an empty
workspace. -/
def LaysOver (p : PlannedUnit) (s : Setup) (r : Request) (file : String) : Prop :=
  ∃ generated text,
    (p.artifacts s (r.inWorkspace .empty)).get? file =
      some { path := file, content := generated } ∧
    (p.artifacts s r).get? file = some { path := file, content := text } ∧
    LaidOver file generated (r.workspace file) text

/-- The unit has the user's file of a name just as it is, if there is one. -/
def Copies (p : PlannedUnit) (s : Setup) (r : Request) (file : String) : Prop :=
  (p.artifacts s r).get? file = (r.workspace file).map fun content => { path := file, content }

/-- Whatever the workspace, the unit has one and the same file of a name. -/
def Fixed (p : PlannedUnit) (s : Setup) (r : Request) (file : String) : Prop :=
  ∃ content, ∀ w, (p.artifacts s (r.inWorkspace w)).get? file =
    some { path := file, content := content }

/-- A unit lays a file over a text if it has the two merged, whatever the workspace. -/
theorem laysOver_of_merged {file : String} (generated : String)
    (h : ∀ w : Workspace, (p.artifacts s (r.inWorkspace w)).get? file =
      some { path := file, content := mergeOverlay generated (w file) file }) :
    p.LaysOver s r file :=
  ⟨generated, _, h .empty, h r.workspace, laidOver_mergeOverlay _ _ _⟩

/-- A unit that is built natively lays the user's configuration over the generated one. -/
theorem laysOver_of_native {tooling : NativeTooling} {file : String}
    (h : (p.toolchain s r).BuildsNatively tooling file) : p.LaysOver s r file :=
  -- Of the deployment, only the workspace is another one.
  laysOver_of_merged (p.deployment s r).composedConfig fun w =>
    get?_config_of_native (r := r.inWorkspace w) h

/-- A unit on Zephyr lays the user's Kconfig file over the generated one. -/
theorem laysOver_kconfig (h : (p.toolchain s r).BuildsOnZephyr) :
    p.LaysOver s r Zephyr.kconfigFile :=
  laysOver_of_merged Kconfig.networkWorker.render fun w =>
    get?_kconfig_of_zephyr (r := r.inWorkspace w) h

/-- Nothing of the workspace comes into the generated configuration of a unit on Zephyr. -/
theorem fixed_config (h : (p.toolchain s r).BuildsOnZephyr) : p.Fixed s r "prj_lf.conf" :=
  ⟨Config.compose s.order (Zephyr.generatedConfig (p.deployment s r))
    (p.deployment s r).boardConfig?, fun w => get?_config_of_zephyr (r := r.inWorkspace w) h⟩

/-- A unit on Zephyr copies the files of the user that Zephyr reads. -/
theorem copies_of_zephyr (h : (p.toolchain s r).BuildsOnZephyr) {file : String}
    (hfile : file ∈ Zephyr.copiedFiles) : p.Copies s r file := by
  unfold Copies
  cases hcontent : r.workspace file with
  | some content =>
    have hmem : { path := file, content : Artifact } ∈ p.generated s r := by
      rw [generated_of_zephyr h]
      exact .tail _ (List.mem_append_right _ (Zephyr.mem_copies hfile hcontent))
    exact get?_artifacts hmem
  | none =>
    refine List.find?_eq_none.2 fun a ha hpath => ?_
    obtain rfl : a.path = file := eq_of_beq hpath
    rw [p.artifacts_eq_generated, generated_of_zephyr h] at ha
    have hgeneratedFile : (p.deployment s r).layout.generatedFile = "prj_lf.conf" :=
      generatedFile_of_layout h.layout
    have hother : ∀ file ∈ Zephyr.copiedFiles,
        file ∉ [EntryPoint.path, "CMakeLists.txt", "prj_lf.conf", Zephyr.kconfigFile] := by
      decide
    refine hother a.path hfile ?_
    rcases List.mem_cons.1 ha with rfl | ha
    · exact .head _
    rcases List.mem_append.1 ha with ha | ha
    · rw [← hgeneratedFile]
      exact .tail _ (List.mem_map_of_mem ha)
    · have hcopied : r.workspace a.path = some a.content := Zephyr.workspace_of_mem_copies ha
      rw [hcontent] at hcopied
      cases hcopied

/-- **Nothing of the user's files is lost.** Whatever the toolchain of a unit, the boards, the order
of layers and the workspace: a unit with one file for its configuration lays the user's file of that
name over it. A unit on Zephyr lays the user's Kconfig file over its own, copies the other two files
of the user that Zephyr reads, and takes nothing of the workspace into its own configuration. -/
theorem overlays_kept (p : PlannedUnit) (s : Setup) (r : Request) :
    (∃ file, (p.toolchain s r).layout = .combined file ∧ p.LaysOver s r file) ∨
    ((p.toolchain s r).layout = .split "prj_lf.conf" "prj.conf" ∧
      p.LaysOver s r "Kconfig" ∧ p.Copies s r "prj.conf" ∧ p.Copies s r "app.overlay" ∧
      p.Fixed s r "prj_lf.conf") := by
  rcases p.toolchain_cases s r with ⟨tooling, file, h⟩ | h
  · exact .inl ⟨file, h.layout, laysOver_of_native h⟩
  · exact .inr ⟨h.layout, laysOver_kconfig h, copies_of_zephyr h (.head _),
      copies_of_zephyr h (.tail _ (.head _)), fixed_config h⟩

end PlannedUnit

end ReactorDeploy
