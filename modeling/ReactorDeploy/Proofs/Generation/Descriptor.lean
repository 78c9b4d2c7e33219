import ReactorDeploy.Proofs.Generation.Placement

/-!
# The build descriptor of a unit

Whatever toolchain a registry assigns to a unit, exactly one of its generators writes the
descriptor (`exists_descriptor`), and it installs the main target just where plain CMake builds the
unit. The plan that is reported of a unit agrees with its artifacts about the make script always,
and about the installation unless the tooling of ESP-IDF builds the unit (`plan_agrees_iff`).
-/

namespace ReactorDeploy

/-! ## Commands of a document -/

namespace CMake

theorem commandsOf_append (doc more : Document) :
    commandsOf (doc ++ more) = commandsOf doc ++ commandsOf more := by
  induction doc with
  | nil => rfl
  | cons line doc ih => rw [List.cons_append, commandsOf, ih, commandsOf, List.append_assoc]

/-- The arguments of every command of a name, those in blocks included. -/
def argumentsOf (doc : Document) (name : String) : List (List String) :=
  (commandsOf doc).filterMap fun c => if c.1 = name then some c.2 else none

theorem argumentsOf_append (doc more : Document) (name : String) :
    argumentsOf (doc ++ more) name = argumentsOf doc name ++ argumentsOf more name := by
  rw [argumentsOf, commandsOf_append, List.filterMap_append]
  rfl

@[simp] theorem argumentsOf_nil (name : String) : argumentsOf [] name = [] := rfl

@[simp] theorem argumentsOf_command (command : String) (args : List String) (doc : Document)
    (name : String) : argumentsOf (.command command args :: doc) name =
      if command = name then args :: argumentsOf doc name else argumentsOf doc name := by
  rw [argumentsOf, commandsOf, Line.commands, List.singleton_append, List.filterMap_cons]
  split_ifs <;> rfl

@[simp] theorem argumentsOf_blank (doc : Document) (name : String) :
    argumentsOf (.blank :: doc) name = argumentsOf doc name := rfl

@[simp] theorem argumentsOf_comment (text : String) (doc : Document) (name : String) :
    argumentsOf (.comment text :: doc) name = argumentsOf doc name := rfl

@[simp] theorem argumentsOf_ifThen (condition : String) (body doc : Document) (name : String) :
    argumentsOf (Document.ifThen condition body :: doc) name =
      argumentsOf body name ++ argumentsOf doc name := by
  rw [← argumentsOf_append, argumentsOf, argumentsOf, commandsOf_append]
  rfl

@[simp] theorem argumentsOf_ifElse (condition : String) (body otherwise doc : Document)
    (name : String) : argumentsOf (Document.ifElse condition body otherwise :: doc) name =
      argumentsOf body name ++ argumentsOf otherwise name ++ argumentsOf doc name := by
  rw [← argumentsOf_append, ← argumentsOf_append, argumentsOf, argumentsOf, commandsOf_append,
    commandsOf_append]
  rfl

/-- What a document sets a variable to: the arguments behind its name, wherever it is set. -/
def settingsOf (doc : Document) (name : String) : List (List String) :=
  (argumentsOf doc "set").filterMap fun args =>
    if args.head? = some name then some args.tail else none

/-- Whether a document installs targets. -/
def installs (doc : Document) : Bool :=
  (argumentsOf doc "install").any fun args => args.head? == some "TARGETS"

/-- The arguments of the command that installs the main target below the project root. -/
def installArguments : List String :=
  ["TARGETS", var "LF_MAIN_TARGET", "DESTINATION", var "PROJECT_ROOT" ++ "/bin"]

/-- The variables that a descriptor sets by itself, each with its value behind it. -/
def identitySettings (identity : Identity) (options : BuildOptions) : List (List String) :=
  [["LF_MAIN", identity.mainName], ["LF_MAIN_TARGET", identity.mainTarget],
    ["PROJECT_ROOT", identity.projectRoot ++ "/.."]] ++
  (if options.hasKconfigRoot then
    [["KCONFIG_ROOT", var "CMAKE_CURRENT_SOURCE_DIR" ++ "/Kconfig"]] else []) ++
  [["LOG_LEVEL", identity.logLevel.constant]] ++
  identity.federate.toList.map fun f => ["FEDERATE", f]

section
variable {first : Document} {identity : Identity} {options : BuildOptions}

/-- A descriptor has no rule to install anything but that for the main target. -/
theorem argumentsOf_install_descriptor (h : argumentsOf first "install" = []) :
    argumentsOf (descriptor first identity options) "install" =
      if options.installsTarget then [installArguments] else [] := by
  simp only [descriptor, argumentsOf_append, h]
  cases options.createsMainTarget <;> cases options.installsTarget <;>
    cases options.hasKconfigRoot <;> cases identity.federate <;>
    simp [Document.set, installArguments]

/-- A descriptor sets the identity of its unit, and nothing else behind the commands that it starts
with. -/
theorem argumentsOf_set_descriptor :
    argumentsOf (descriptor first identity options) "set" =
      argumentsOf first "set" ++ identitySettings identity options := by
  simp only [descriptor, argumentsOf_append]
  cases options.createsMainTarget <;> cases options.installsTarget <;>
    cases hroot : options.hasKconfigRoot <;> cases hfederate : identity.federate <;>
    simp [Document.set, identitySettings, hroot, hfederate]

/-- The settings of a descriptor, for a name that the commands it starts with leave alone. -/
theorem settingsOf_descriptor {name : String} (h : settingsOf first name = []) :
    settingsOf (descriptor first identity options) name =
      (identitySettings identity options).filterMap fun args =>
        if args.head? = some name then some args.tail else none := by
  rw [settingsOf, argumentsOf_set_descriptor, List.filterMap_append]
  exact congrArg (· ++ _) h

/-- The variables that a descriptor sets by itself are different. -/
theorem nodup_head_identitySettings :
    ((identitySettings identity options).map List.head?).Nodup := by
  unfold identitySettings
  cases options.hasKconfigRoot <;> cases identity.federate <;> simp

/-- A variable that a descriptor sets by itself has its value, and no other one. -/
theorem settingsOf_descriptor_of_mem {name value : String} (h : settingsOf first name = [])
    (hmem : [name, value] ∈ identitySettings identity options) :
    settingsOf (descriptor first identity options) name = [[value]] := by
  rw [settingsOf_descriptor h]
  have hheads : ((identitySettings identity options).map List.head?).Nodup :=
    nodup_head_identitySettings
  obtain ⟨before, behind, heq⟩ := List.append_of_mem hmem
  rw [heq, List.map_append, List.map_cons] at hheads
  obtain ⟨hother, -⟩ := List.nodup_cons.1 (List.nodup_middle.1 hheads)
  rw [← List.map_append] at hother
  have hnone : ∀ args ∈ before ++ behind,
      (if args.head? = some name then some args.tail else none) = none := fun args hargs =>
    if_neg fun hname => hother (List.mem_map.2 ⟨args, hargs, hname⟩)
  rw [List.forall_mem_append] at hnone
  rw [heq, List.filterMap_append, List.filterMap_eq_nil_iff.2 hnone.1, List.filterMap_cons,
    List.filterMap_eq_nil_iff.2 hnone.2]
  simp

/-- The descriptor of a federate names it, and no other one names a federate. -/
theorem settingsOf_federate_descriptor (h : settingsOf first "FEDERATE" = []) :
    settingsOf (descriptor first identity options) "FEDERATE" =
      identity.federate.toList.map fun f => [f] := by
  rw [settingsOf_descriptor h, identitySettings]
  cases options.hasKconfigRoot <;> cases identity.federate <;> rfl

end

end CMake

open CMake (argumentsOf settingsOf installs installArguments)

/-! ## The descriptors of the toolchains -/

/-- The commands that the descriptor of a native build starts with install nothing. -/
theorem NativeBuild.argumentsOf_install_firstCommands (b : NativeBuild) (u : Deployment) :
    argumentsOf (b.firstCommands u) "install" = [] := by
  unfold firstCommands
  cases b.tooling <;> cases u.selectedBoard? <;> simp [CMake.Document.setCache, CMake.Document.set]

/-- The commands that the descriptor of a native build starts with leave the identity of the unit
alone. -/
theorem NativeBuild.settingsOf_firstCommands (b : NativeBuild) (u : Deployment) {name : String}
    (h : name ∉ ["PLATFORM", "BOARD", "IDF_TARGET"]) :
    settingsOf (b.firstCommands u) name = [] := by
  simp only [List.mem_cons, List.not_mem_nil, or_false, not_or] at h
  obtain ⟨hplatform, hboard, hidf⟩ := h
  unfold firstCommands
  cases b.tooling <;> cases u.selectedBoard? <;>
    simp [CMake.Document.setCache, CMake.Document.set, settingsOf, Ne.symm hplatform,
      Ne.symm hboard, Ne.symm hidf]

/-- The commands that the descriptor of a unit on Zephyr starts with install nothing. -/
theorem Zephyr.argumentsOf_install_firstCommands (u : Deployment) :
    argumentsOf (firstCommands u) "install" = [] := by
  unfold firstCommands
  cases u.layout.userOverride? <;>
    simp [CMake.Document.setCache, CMake.Document.set, appendHint]

/-- The descriptor that a generator writes, if it writes one. -/
def Generator.descriptor? (u : Deployment) : Generator → Option CMake.Document
  | .entryPoint _ => none
  | .nativeBuild b => some (b.descriptor u)
  | .zephyr => some (Zephyr.descriptor u)

/-- A descriptor that a generator writes is an artifact. -/
theorem Generator.mem_artifacts_of_descriptor? {g : Generator} {u : Deployment}
    {doc : CMake.Document} (h : g.descriptor? u = some doc) :
    { path := "CMakeLists.txt", content := doc.render : Artifact } ∈ g.artifacts u := by
  cases g with
  | entryPoint style => cases h
  | nativeBuild b =>
    cases h
    exact .head _
  | zephyr =>
    cases h
    exact .head _

namespace PlannedUnit

/-- The descriptors of a unit. -/
def descriptors (p : PlannedUnit) (s : Setup) (r : Request) : List CMake.Document :=
  (p.toolchain s r).generators.filterMap (Generator.descriptor? (p.deployment s r))

/-- The generators of a unit make its descriptor. -/
theorem mem_generated_of_descriptors {p : PlannedUnit} {s : Setup} {r : Request}
    {doc : CMake.Document} (h : p.descriptors s r = [doc]) :
    { path := "CMakeLists.txt", content := doc.render : Artifact } ∈ p.generated s r := by
  have hdoc : doc ∈ p.descriptors s r := h ▸ List.mem_singleton_self doc
  obtain ⟨g, hg, hdoc⟩ := List.mem_filterMap.1 hdoc
  exact List.mem_flatMap.2 ⟨g, hg, Generator.mem_artifacts_of_descriptor? hdoc⟩

theorem descriptors_of_native {p : PlannedUnit} {s : Setup} {r : Request}
    {tooling : NativeTooling} {file : String}
    (h : (p.toolchain s r).BuildsNatively tooling file) :
    p.descriptors s r = [(NativeBuild.ofTooling tooling).descriptor (p.deployment s r)] := by
  rw [descriptors, h.generators]
  rfl

theorem descriptors_of_zephyr {p : PlannedUnit} {s : Setup} {r : Request}
    (h : (p.toolchain s r).BuildsOnZephyr) :
    p.descriptors s r = [Zephyr.descriptor (p.deployment s r)] := by
  rw [descriptors, h.generators]
  rfl

end PlannedUnit

/-! ## The plan of a unit -/

/-- The paths of the artifacts of a unit on Zephyr. -/
theorem Zephyr.mem_paths_artifacts {u : Deployment} {path : String}
    (h : path ∈ (artifacts u).map Artifact.path) :
    path ∈ ["CMakeLists.txt", u.layout.generatedFile, kconfigFile] ++ copiedFiles := by
  rw [artifacts, List.map_append, List.mem_append] at h
  exact List.mem_append.2 (h.imp id (paths_copies u.workspace).mem)

namespace PlannedUnit

/-- A unit has a make script just if its plan says so. -/
theorem makeScript_mem_paths_iff (p : PlannedUnit) (s : Setup) (r : Request) :
    MakeScript.path ∈ (p.artifacts s r).paths ↔
      (p.toolchain s r).plan.nativeBuildFiles = true := by
  rw [artifacts, ArtifactSet.mem_paths_ofList]
  show MakeScript.path ∈ (p.generated s r).map Artifact.path ↔ _
  rcases p.toolchain_cases s r with ⟨tooling, file, h⟩ | h
  · rw [generated_of_native h, h.plan]
    exact ⟨fun _ => rfl, fun _ => .tail _ (.tail _ (.head _))⟩
  · rw [generated_of_zephyr h, h.plan]
    refine ⟨fun hmem => ?_, nofun⟩
    have hfile : (p.deployment s r).layout.generatedFile = "prj_lf.conf" :=
      generatedFile_of_layout h.layout
    have hpaths : MakeScript.path = EntryPoint.path ∨ _ :=
      (List.mem_cons.1 hmem).imp id Zephyr.mem_paths_artifacts
    rw [hfile] at hpaths
    exact absurd hpaths (by decide)

/-- A unit has one descriptor, which is its artifact of that path. It installs targets just if
plain CMake builds the unit. -/
theorem exists_descriptor (p : PlannedUnit) (s : Setup) (r : Request) :
    ∃ doc, p.descriptors s r = [doc] ∧
      (p.artifacts s r).get? "CMakeLists.txt" =
        some { path := "CMakeLists.txt", content := doc.render } ∧
      (installs doc = true ↔ (p.toolchain s r).native = some (.ofTooling .cmake)) := by
  rcases p.toolchain_cases s r with ⟨tooling, file, h⟩ | h
  · have hdoc := descriptors_of_native h
    refine ⟨_, hdoc, get?_artifacts (mem_generated_of_descriptors hdoc), ?_⟩
    have hinstall : argumentsOf ((NativeBuild.ofTooling tooling).descriptor (p.deployment s r))
        "install" = if (NativeBuild.ofTooling tooling).installsTarget then [installArguments]
          else [] :=
      CMake.argumentsOf_install_descriptor (NativeBuild.argumentsOf_install_firstCommands _ _)
    rw [installs, hinstall, h.native]
    cases tooling <;> decide
  · have hdoc := descriptors_of_zephyr h
    refine ⟨_, hdoc, get?_artifacts (mem_generated_of_descriptors hdoc), ?_⟩
    have hinstall : argumentsOf (Zephyr.descriptor (p.deployment s r)) "install" = [] :=
      CMake.argumentsOf_install_descriptor (Zephyr.argumentsOf_install_firstCommands _)
    rw [installs, hinstall, h.native]
    exact ⟨nofun, nofun⟩

end PlannedUnit

/-- **When a plan agrees with its unit.** The plan that a pass reports of a unit says that there is
a make script just if there is one. It says that there is an install target just if the descriptor
of the unit installs targets, unless the tooling of ESP-IDF builds the unit, and then it never
does. -/
theorem plan_agrees_iff {s : Setup} {n : Numbering} {r : Request} {out : GenerationOutput}
    (h : (generate s n r).1 = .ok out) :
    ∃ ps, r.manifest.Planned n ps ∧ out.units = ps.map (fun p => p.report s r) ∧ ∀ p ∈ ps,
      (MakeScript.path ∈ (p.artifacts s r).paths ↔
        (p.report s r).plan.nativeBuildFiles = true) ∧
      ∃ doc, p.descriptors s r = [doc] ∧
        (p.artifacts s r).get? "CMakeLists.txt" =
          some { path := "CMakeLists.txt", content := doc.render } ∧
        ((installs doc = true ↔ (p.report s r).plan.installTarget = true) ↔
          (p.toolchain s r).native ≠ some (.ofTooling .espIdf)) := by
  obtain ⟨ps, hplanned, rfl⟩ := exists_planned h
  refine ⟨ps, hplanned, GenerationOutput.units_ofUnits _ _ _ _, fun p _ =>
    ⟨p.makeScript_mem_paths_iff s r, ?_⟩⟩
  obtain ⟨doc, hdoc, hget, hinstalls⟩ := p.exists_descriptor s r
  refine ⟨doc, hdoc, hget, ?_⟩
  show (installs doc = true ↔ (p.toolchain s r).plan.installTarget = true) ↔ _
  rw [hinstalls]
  rcases p.toolchain_cases s r with ⟨tooling, file, h⟩ | h
  · rw [h.native, h.plan]
    cases tooling <;> decide
  · rw [h.native, h.plan]
    decide

/-- The plan of an application on the host agrees with its unit. -/
theorem host_plan_agrees :
    ∃ out, (generate {} .perPass (namedRequest "App")).1 = .ok out ∧
      ∃ p : PlannedUnit, out.units = [p.report {} (namedRequest "App")] ∧
        (p.report {} (namedRequest "App")).plan.installTarget = true ∧
        MakeScript.path ∈ (p.artifacts {} (namedRequest "App")).paths ∧
        ∃ doc, p.descriptors {} (namedRequest "App") = [doc] ∧ installs doc = true := by
  have hout := fst_generate_named {} .perPass "App"
  obtain ⟨ps, hplanned, -, hagree⟩ := plan_agrees_iff hout
  cases hplanned with
  | federation hfederated => cases hfederated
  | standalone =>
    obtain ⟨hmake, doc, hdoc, -, hinstalls⟩ := hagree _ (.head _)
    exact ⟨_, hout, _, rfl, rfl, hmake.2 rfl, doc, hdoc, (hinstalls.2 (by decide)).2 rfl⟩

/-- A request to generate a standalone application for ESP-IDF in an empty workspace. -/
def espIdfRequest : Request where
  manifest := { name := "App", target := { platform := .user .espIdf } }
  workspace := Workspace.empty
  outputRoot := "out"

/-- **A plan may promise what the descriptor does not do.** The plan of an application that the
tooling of ESP-IDF builds says that there is an install target, but its descriptor installs
nothing. -/
theorem espIdf_plan_promises_install :
    ∃ out, Manifest.parse "project.name = \"App\"\ntarget.platform = \"espidf\"" =
        .ok espIdfRequest.manifest ∧
      espIdfRequest.manifest.check = .ok [] ∧
      (generate {} .perPass espIdfRequest).1 = .ok out ∧
      ∃ p : PlannedUnit, out.units = [p.report {} espIdfRequest] ∧
        (p.report {} espIdfRequest).plan.installTarget = true ∧
        ∃ doc, p.descriptors {} espIdfRequest = [doc] ∧ installs doc = false ∧
          { path := "App/CMakeLists.txt", content := doc.render : Artifact } ∈
            out.artifacts.artifacts := by
  have hparse : Manifest.parse "project.name = \"App\"\ntarget.platform = \"espidf\"" =
      .ok espIdfRequest.manifest := by
    decide +kernel
  refine ⟨_, hparse, rfl, fst_generate_of_standalone rfl, _, rfl, rfl, _, rfl, ?_, ?_⟩
  · decide +kernel
  · decide +kernel

end ReactorDeploy
