import ReactorDeploy.Proofs.CMake.Arguments

/-!
# The commands of a unit's descriptor

The texts that the descriptor of a unit sets without quotes are the names of the project, the main
reactor, its target and the federate, the directory of the project, and with the tooling of
ESP-IDF the board (`PlannedUnit.unquoted`). The descriptor is read back just if each of them is one
argument (`descriptor_reads_back_iff`), and a name with a blank in it is not
(`blank_splits_project_name`).
-/

namespace ReactorDeploy

open CMake (HasCommand commandText commandsOf isClosed isSingle readArguments)

namespace CMake

/-- The commands by which a descriptor says what its unit is, each with a text that is set as it is
as its last argument. -/
def Identity.commands (identity : Identity) : List (String × List String) :=
  [("project", [identity.projectName]), ("set", ["LF_MAIN", identity.mainName]),
    ("set", ["LF_MAIN_TARGET", identity.mainTarget]),
    ("set", ["PROJECT_ROOT", identity.projectRoot ++ "/.."])] ++
  identity.federate.toList.map fun f => ("set", ["FEDERATE", f])

/-- They are among the commands of the descriptor. -/
theorem mem_commandsOf_descriptor {first : Document} {identity : Identity}
    {options : BuildOptions} :
    ∀ c ∈ identity.commands, c ∈ commandsOf (descriptor first identity options) := by
  have hfederate : commandsOf (identity.federate.toList.map fun f => Document.set "FEDERATE" f) =
      identity.federate.toList.map fun f => ("set", ["FEDERATE", f]) := by
    cases identity.federate <;> rfl
  have hnames : commandsOf [.command "project" [identity.projectName],
      Document.set "LF_MAIN" identity.mainName, Document.set "LF_MAIN_TARGET" identity.mainTarget,
      Document.set "PROJECT_ROOT" (identity.projectRoot ++ "/..")] =
      [("project", [identity.projectName]), ("set", ["LF_MAIN", identity.mainName]),
        ("set", ["LF_MAIN_TARGET", identity.mainTarget]),
        ("set", ["PROJECT_ROOT", identity.projectRoot ++ "/.."])] := rfl
  intro c hc
  simp only [descriptor, commandsOf_append, hfederate, hnames, List.mem_append]
  rcases List.mem_append.1 hc with hc | hc
  · simp only [hc, true_or, or_true]
  · simp only [hc, true_or, or_true]

/-- Each of them is read back just if that text is one argument. -/
theorem Identity.readArguments_commands_iff {identity : Identity} :
    ∀ c ∈ identity.commands, readArguments (commandText c.1 c.2) = c.2 ↔
      ∀ text ∈ c.2.getLast?, isSingle text = true := by
  have hproject : readArguments (commandText "project" [identity.projectName]) =
      [identity.projectName] ↔ ∀ text ∈ some identity.projectName, isSingle text = true :=
    (readArguments_commandText_singleton (by decide) _).trans (by simp)
  have hset : ∀ name value, isClosed name = true →
      (readArguments (commandText "set" [name, value]) = [name, value] ↔
        ∀ text ∈ some value, isSingle text = true) := fun name value hname =>
    (readsBack_command.symm.trans (readsBack_set_iff hname value)).trans (by simp)
  refine List.forall_mem_append.2 ⟨?_, fun c hc => ?_⟩
  · simp only [List.forall_mem_cons]
    exact ⟨hproject, hset _ _ (by decide), hset _ _ (by decide), hset _ _ (by decide), nofun⟩
  · obtain ⟨f, -, rfl⟩ := List.mem_map.1 hc
    exact hset _ _ (by decide)

end CMake

/-! ## What descriptors start with -/

/-- Of the commands that a native descriptor starts with, all are read back but the one by which the
tooling of ESP-IDF is told the board. -/
theorem NativeBuild.readsBack_firstCommands_iff (b : NativeBuild) (u : Deployment) :
    (b.firstCommands u).ReadsBack ↔
      (b.tooling = .espIdf → ∀ board ∈ u.selectedBoard?, isSingle board = true) := by
  have hplatform := CMake.readsBack_setCache (show isClosed "PLATFORM" = true by decide)
    u.platform.buildName "Platform to target"
  unfold firstCommands
  rw [CMake.readsBack_cons, and_iff_right hplatform]
  cases b.tooling with
  | cmake =>
    refine iff_of_true ?_ nofun
    cases u.selectedBoard? with
    | none => exact CMake.readsBack_nil
    | some board =>
      exact CMake.readsBack_cons.2 ⟨CMake.readsBack_setCache (by decide) _ _, CMake.readsBack_nil⟩
  | espIdf =>
    have hinclude : (CMake.Line.command "include"
        [CMake.env "IDF_PATH" ++ "/tools/cmake/project.cmake"]).ReadsBack :=
      CMake.readsBack_of_isClosed (by decide) (by decide)
    simp only [CMake.readsBack_append, CMake.readsBack_cons, hinclude, CMake.readsBack_nil, and_true,
      true_implies]
    cases u.selectedBoard? with
    | none => exact iff_of_true CMake.readsBack_nil nofun
    | some board =>
      have hboard := CMake.readsBack_set_iff (show isClosed "IDF_TARGET" = true by decide) board
      simpa [CMake.readsBack_cons, CMake.readsBack_nil] using hboard

/-- The commands that a descriptor for Zephyr starts with are read back. -/
theorem Zephyr.readsBack_firstCommands {u : Deployment}
    (hlayout : u.layout = .split "prj_lf.conf" "prj.conf") : (firstCommands u).ReadsBack := by
  have hplatform := CMake.readsBack_setCache (show isClosed "PLATFORM" = true by decide)
    "ZEPHYR" "Platform to target"
  have hboard := (CMake.readsBack_set_iff (show isClosed "BOARD" = true by decide) _).2
    (CMake.isSingle_of_isClosed (CMake.isClosed_quoted (defaultBoard u)))
  have hconfig := (CMake.readsBack_set_iff (show isClosed "CONF_FILE" = true by decide)
    "prj_lf.conf").2 (by decide)
  have hoverlay := (CMake.readsBack_set_iff (show isClosed "OVERLAY_CONFIG" = true by decide)
    "prj.conf").2 (by decide)
  have hhints : (CMake.Line.command "set" [hintsVariable]).ReadsBack :=
    CMake.readsBack_of_isClosed (by decide) (by decide)
  have happend : ∀ hint, (appendHint (CMake.quoted hint)).ReadsBack := by
    intro hint
    refine CMake.readsBack_cons.2 ⟨CMake.readsBack_of_isClosed (by decide) ?_, CMake.readsBack_nil⟩
    simp only [List.forall_mem_cons, CMake.isClosed_quoted]
    decide
  have hfind : (CMake.Line.command "find_package"
      ["Zephyr", "REQUIRED", "HINTS", CMake.var hintsVariable]).ReadsBack :=
    CMake.readsBack_of_isClosed (by decide) (by decide)
  have hfindAnywhere : (CMake.Line.command "find_package" ["Zephyr", "REQUIRED"]).ReadsBack :=
    CMake.readsBack_of_isClosed (by decide) (by decide)
  have hoptions : (CMake.Line.command "zephyr_compile_options"
      ["-Wno-error=unused-parameter", "-Wno-error=type-limits"]).ReadsBack :=
    CMake.readsBack_of_isClosed (by decide) (by decide)
  have hdefinitions : (CMake.Line.command "zephyr_compile_definitions" ["_GNU_SOURCE"]).ReadsBack :=
    CMake.readsBack_of_isClosed (by decide) (by decide)
  rw [firstCommands, hlayout]
  simp only [ConfigLayout.userOverride?, ConfigLayout.generatedFile, CMake.readsBack_append,
    CMake.readsBack_cons, CMake.readsBack_nil, CMake.readsBack_comment, CMake.readsBack_ifThen,
    CMake.readsBack_ifElse, hplatform, hboard, hconfig, hoverlay, hhints, happend, hfind,
    hfindAnywhere, hoptions, hdefinitions, and_self]

/-! ## Units -/

namespace PlannedUnit

/-- What the descriptor of a unit says about it. -/
def identity (p : PlannedUnit) (s : Setup) (r : Request) : CMake.Identity where
  projectName := (p.deployment s r).projectName
  mainName := (p.deployment s r).mainName
  mainTarget := match (p.toolchain s r).native with
    | some build => build.mainTarget (p.deployment s r)
    | none => "app"
  projectRoot := (p.deployment s r).projectRoot
  federate := (p.deployment s r).federateName?
  logLevel := (p.deployment s r).options.logging.value

/-- The texts that the descriptor of a unit sets as they are: what it says about the unit, and with
the tooling of ESP-IDF the board. -/
def unquoted (p : PlannedUnit) (s : Setup) (r : Request) : List String :=
  (p.identity s r).texts ++
    if (p.toolchain s r).native = some (.ofTooling .espIdf) then
      (p.deployment s r).selectedBoard?.toList
    else []

variable {p : PlannedUnit} {s : Setup} {r : Request}

/-- The descriptor of a unit says what the unit is, and is read back just if the texts that it sets
as they are are single arguments. -/
theorem exists_descriptor_eq (p : PlannedUnit) (s : Setup) (r : Request) :
    ∃ first options, p.descriptors s r = [CMake.descriptor first (p.identity s r) options] ∧
      ((CMake.descriptor first (p.identity s r) options).ReadsBack ↔
        ∀ text ∈ p.unquoted s r, isSingle text = true) := by
  rcases p.toolchain_cases s r with ⟨tooling, file, h⟩ | h
  · have hidentity : p.identity s r = { p.identity s r with
        mainTarget := (NativeBuild.ofTooling tooling).mainTarget (p.deployment s r) } := by
      rw [identity, h.native]
    have hdescriptor := descriptors_of_native h
    rw [NativeBuild.descriptor] at hdescriptor
    refine ⟨_, _, hidentity ▸ hdescriptor, ?_⟩
    rw [CMake.readsBack_descriptor_iff, NativeBuild.readsBack_firstCommands_iff, unquoted, h.native,
      List.forall_mem_append, and_comm]
    refine and_congr_right fun _ => ?_
    cases tooling with
    | cmake => exact iff_of_true nofun (by rw [if_neg nofun]; nofun)
    | espIdf => simp [NativeBuild.ofTooling]
  · have hidentity : p.identity s r = { p.identity s r with mainTarget := "app" } := by
      rw [identity, h.native]
    have hdescriptor := descriptors_of_zephyr h
    rw [Zephyr.descriptor] at hdescriptor
    refine ⟨_, _, hidentity ▸ hdescriptor, ?_⟩
    have hlayout : (p.deployment s r).layout = .split "prj_lf.conf" "prj.conf" := h.layout
    rw [CMake.readsBack_descriptor_iff, and_iff_right (Zephyr.readsBack_firstCommands hlayout),
      unquoted, h.native, if_neg nofun, List.append_nil]

end PlannedUnit

/-- **When a descriptor is read back.** Every unit of a pass has one descriptor, which is its artifact
of that path, and all commands of it stand there. Read by splitting what is between the parentheses
at the blanks outside of quotes, every one of these has the arguments that the descriptor has for it
just if the names of the project, of the main reactor, of its target and of the federate, the
directory, and with the tooling of ESP-IDF the board, are single arguments. By itself, a command
that says what the unit is is read back just if the text that it ends in is one. -/
theorem descriptor_reads_back_iff {s : Setup} {n : Numbering} {r : Request} {out : GenerationOutput}
    (h : (generate s n r).1 = .ok out) :
    ∃ ps, r.manifest.Planned n ps ∧ out.units = ps.map (fun p => p.report s r) ∧ ∀ p ∈ ps,
      ∃ doc, p.descriptors s r = [doc] ∧
        (p.artifacts s r).get? "CMakeLists.txt" =
          some { path := "CMakeLists.txt", content := doc.render } ∧
        (∀ c ∈ commandsOf doc, HasCommand doc.render c) ∧
        (doc.ReadsBack ↔ ∀ text ∈ p.unquoted s r, isSingle text = true) ∧
        ∀ c ∈ (p.identity s r).commands, c ∈ commandsOf doc ∧
          (readArguments (commandText c.1 c.2) = c.2 ↔
            ∀ text ∈ c.2.getLast?, isSingle text = true) := by
  obtain ⟨ps, hplanned, rfl⟩ := exists_planned h
  refine ⟨ps, hplanned, GenerationOutput.units_ofUnits _ _ _ _, fun p _ => ?_⟩
  obtain ⟨first, options, hdoc, hreads⟩ := p.exists_descriptor_eq s r
  have hget := PlannedUnit.get?_artifacts (PlannedUnit.mem_generated_of_descriptors hdoc)
  refine ⟨_, hdoc, hget, fun c hc => ?_, hreads, fun c hc => ⟨?_, ?_⟩⟩
  · exact CMake.hasCommand_renderLines _ 0 hc
  · exact CMake.mem_commandsOf_descriptor c hc
  · exact CMake.Identity.readArguments_commands_iff c hc

/-- The descriptor of an application whose name has no blank in it is read back. -/
theorem plain_name_reads_back :
    ∃ out, (generate {} .perPass (namedRequest "App")).1 = .ok out ∧
      out.units = [(namedUnit "App").report {} (namedRequest "App")] ∧
      ∃ doc, (namedUnit "App").descriptors {} (namedRequest "App") = [doc] ∧ doc.ReadsBack := by
  have hout := fst_generate_named {} .perPass "App"
  refine ⟨_, hout, rfl, ?_⟩
  obtain ⟨ps, hplanned, -, hreads⟩ := descriptor_reads_back_iff hout
  obtain rfl := hplanned.eq_of_standalone rfl
  obtain ⟨doc, hdoc, -, -, hiff, -⟩ := hreads _ (.head _)
  exact ⟨doc, hdoc, hiff.2 (by decide +kernel)⟩

/-- **A name may be two arguments.** The name of an application may have a blank in it. It is
accepted, and the command that names the project has two names, of which neither is that of the
application. -/
theorem blank_splits_project_name :
    let r := namedRequest "My App"
    Manifest.parse "[project]\nname = \"My App\"\n" = .ok r.manifest ∧
      r.manifest.check = .ok [] ∧
      ∃ out doc, (generate {} .perPass r).1 = .ok out ∧
        out.units = [(namedUnit "My App").report {} r] ∧
        (namedUnit "My App").descriptors {} r = [doc] ∧
        ("project", ["My App"]) ∈ commandsOf doc ∧
        HasCommand doc.render ("project", ["My App"]) ∧
        readArguments (commandText "project" ["My App"]) = ["My", "App"] := by
  intro r
  have hparse : Manifest.parse "[project]\nname = \"My App\"\n" = .ok r.manifest := by
    decide +kernel
  obtain ⟨first, options, hdoc, -⟩ := (namedUnit "My App").exists_descriptor_eq {} r
  have hproject : ("project", ["My App"]) ∈
      commandsOf (CMake.descriptor first ((namedUnit "My App").identity {} r) options) :=
    CMake.mem_commandsOf_descriptor _ (.head _)
  exact ⟨hparse, rfl, _, _, fst_generate_named {} .perPass "My App", rfl, hdoc, hproject,
    CMake.hasCommand_renderLines _ 0 hproject, by decide +kernel⟩

end ReactorDeploy
