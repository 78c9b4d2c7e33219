import ReactorDeploy.Proofs.Federation.Order
import ReactorDeploy.Proofs.Generation.Descriptor
import ReactorDeploy.Proofs.Text.Lines

/-!
# What a launch script starts

The launch script of a federation starts an executable for each federate, beside itself
(`exists_startLines`). It is the application as a whole that decides whether there is a script, but
each federate decides how its unit is built. Where the application's name leads one directory down,
the executable of a federate is what its own descriptor installs just if plain CMake builds the
unit (`started_is_installed_iff`).
-/

namespace ReactorDeploy

open CMake (argumentsOf settingsOf installs installArguments)
open Files (Path Step Location)

/-! ## The script -/

/-- The launch script has the lines that start each of its federates. -/
theorem LaunchScript.exists_startLines {script : LaunchScript} {federate : String}
    (h : federate ∈ script.federates) :
    ∃ before after, script.render =
      before ++ linesText (startLines script.app federate) ++ after := by
  obtain ⟨names, more, hfederates⟩ := List.append_of_mem h
  unfold render
  rw [hfederates, List.flatMap_append, List.flatMap_cons]
  simp only [linesText_append, ← String.append_assoc]
  exact ⟨_, _, String.append_assoc⟩

/-- From above a directory it is one step to the directory for binaries. -/
theorem Files.Path.goal_binaries {directory : String} (hne : directory ≠ "") (cwd : Location) :
    (Path.ofString (directory ++ "/.." ++ "/bin")).goal cwd =
      ((Path.ofString directory).goal cwd).dropLast ++ ["bin"] := by
  have htext : directory ++ "/.." ++ "/bin" = directory ++ "/" ++ ".." ++ "/" ++ "bin" := by
    simp only [String.append_assoc]
    rfl
  have hup : directory ++ "/" ++ ".." ≠ "" := by
    rw [Ne, ← String.toList_inj]
    simp
  rw [htext, goal_append_slash hup, goal_append_slash hne]
  rfl

namespace Manifest

variable {m : Manifest} {warnings : List Problem} {script : Artifact} {f : Federate}

/-- The launch script of a federation has the lines that start each of its federates. -/
theorem exists_startLines (h : m.script? = some script) (hf : f ∈ m.federates) :
    ∃ before after, script.content =
      before ++ linesText (LaunchScript.startLines m.name f.name) ++ after := by
  obtain ⟨hfederated, hlaunches, -⟩ := of_script? h
  rw [script?, if_pos hfederated, launchArtifact?, if_pos hlaunches] at h
  have hfederate : f.name ∈ m.launchScript.federates :=
    List.mem_map_of_mem (mem_orderedFederates.2 hf)
  have hstart := LaunchScript.exists_startLines hfederate
  generalize m.launchScript.render = text at h hstart
  rw [← Option.some.inj h]
  exact hstart

/-- The launch script is in the directory for binaries of the application, if the name of the
application leads one directory down. -/
theorem dropLast_goal_script (hname : (Path.ofString m.name).LeadsDown)
    (h : m.script? = some script) (hcheck : m.check = .ok warnings) (hf : f ∈ m.federates)
    (outputRoot : String) (cwd : Location) :
    ((Path.ofString (Path.join outputRoot script.path)).goal cwd).dropLast =
      (Path.ofString (Path.join outputRoot ((Role.federate f).directory m.name) ++ "/.." ++
        "/bin")).goal cwd := by
  obtain ⟨n, hn⟩ := hname
  have hne : m.name ≠ "" := by
    intro hempty
    rw [hempty] at hn
    have hnil : ([] : Location) = [n] := hn []
    cases hnil
  have hdirectory : (Role.federate f).directory m.name ≠ "" := by
    rw [Role.directory, Ne, ← String.toList_inj]
    simp
  have hroot := Path.join_ne_empty hdirectory outputRoot
  rw [Path.goal_binaries hroot, Path.goal_join_eq, Path.goal_join_eq, steps_script h,
    absolute_script hne h, m.steps_directory hcheck hf, absolute_directory hne,
    List.foldl_append, List.foldl_append, hn]
  -- The script is two steps below the directory of the application, which is above the unit's.
  generalize (if (Path.ofString m.name).absolute then [] else (Path.ofString outputRoot).goal cwd)
    ++ [n] = app
  show ((Path.ofString m.name).steps.foldl Step.arrive (app ++ ["bin"])).dropLast =
    (app ++ [f.name]).dropLast ++ ["bin"]
  rw [hn, List.dropLast_concat, List.dropLast_concat]

end Manifest

/-- The directory that an artifact is in once it is written below a root. -/
def Artifact.directory (a : Artifact) (outputRoot : String) (cwd : Location) : Location :=
  ((Path.ofString (Path.join outputRoot a.path)).goal cwd).dropLast

/-! ## The target that is installed -/

/-- Whether a descriptor has its main target called by a name, and installs it into a directory. -/
def CMake.InstallsInto (doc : CMake.Document) (target : String)
    (directory : Location → Location) : Prop :=
  settingsOf doc "LF_MAIN_TARGET" = [[target]] ∧
  argumentsOf doc "install" = [installArguments] ∧
  ∃ root, settingsOf doc "PROJECT_ROOT" = [[root]] ∧
    ∀ cwd, (Path.ofString (root ++ "/bin")).goal cwd = directory cwd

section
variable {s : Setup} {n : Numbering} {r : Request} {p : PlannedUnit} {f : Federate}

/-- The main target of a federate that plain CMake builds is called after the application and the
federate. -/
theorem PlannedUnit.mainTarget_deployment (hrole : p.role = .federate f) :
    (NativeBuild.ofTooling .cmake).mainTarget (p.deployment s r) =
      r.manifest.name ++ "_" ++ f.name := by
  have hname : (p.deployment s r).federateName? = some f.name := by
    rw [Deployment.federateName?, PlannedUnit.deployment, hrole]
    rfl
  show (p.deployment s r).nativeTarget = _
  rw [Deployment.nativeTarget, hname]
  rfl

/-- A federate that plain CMake builds is installed into the directory for binaries of the
application. -/
theorem PlannedUnit.installsInto_descriptor (hrole : p.role = .federate f) :
    CMake.InstallsInto ((NativeBuild.ofTooling .cmake).descriptor (p.deployment s r))
      (r.manifest.name ++ "_" ++ f.name) fun cwd =>
        (Path.ofString (Path.join r.outputRoot p.directory ++ "/.." ++ "/bin")).goal cwd := by
  have hfirst : ∀ name ∈ ["LF_MAIN_TARGET", "PROJECT_ROOT"],
      settingsOf ((NativeBuild.ofTooling .cmake).firstCommands (p.deployment s r)) name = [] :=
    fun name hname => NativeBuild.settingsOf_firstCommands _ _ (by revert name; decide)
  refine ⟨?_, CMake.argumentsOf_install_descriptor
    (NativeBuild.argumentsOf_install_firstCommands _ _), _,
    CMake.settingsOf_descriptor_of_mem (hfirst _ (.tail _ (.head _)))
      (.tail _ (.tail _ (.head _))), fun _ => rfl⟩
  rw [← p.mainTarget_deployment hrole]
  exact CMake.settingsOf_descriptor_of_mem (hfirst _ (.head _)) (.tail _ (.head _))

/-- The descriptor of a unit that plain CMake builds. -/
theorem PlannedUnit.descriptors_of_cmake
    (h : (p.toolchain s r).native = some (.ofTooling .cmake)) :
    p.descriptors s r = [(NativeBuild.ofTooling .cmake).descriptor (p.deployment s r)] := by
  rcases p.toolchain_cases s r with ⟨tooling, file, hnative⟩ | hzephyr
  · have htooling : NativeBuild.ofTooling .cmake = .ofTooling tooling :=
      Option.some.inj (h.symm.trans hnative.native)
    rw [htooling, descriptors_of_native hnative]
  · rw [hzephyr.native] at h
    cases h

/-- The platforms whose toolchain is another one than plain CMake from the start. -/
theorem Registry.native_toolchainFor_builtin (platform : Platform) :
    (Registry.builtin.toolchainFor platform).native = some (.ofTooling .cmake) ↔
      platform ∉ [.zephyr, .espIdf] := by
  cases platform <;> decide

/-- The launch script is an artifact of the pass. -/
theorem mem_artifacts_of_script? {ps : List PlannedUnit} {script : Artifact}
    (h : r.manifest.script? = some script) :
    script ∈ (GenerationOutput.ofUnits s r ps r.manifest.script?).artifacts.artifacts := by
  rw [artifacts_ofUnits, Request.made, ArtifactSet.ofList, ArtifactSet.pushAll_append, h]
  exact ArtifactSet.mem_putInto script _

/-- **When the executable that a script starts is installed.** A federation that gets a launch
script, and whose name leads one directory down, gets it with the lines that start an executable
for each federate, beside the script. Just if plain CMake builds the federate, that executable is
what its own descriptor installs; and with the toolchains that there are from the start, plain
CMake builds it unless it is for Zephyr or ESP-IDF. -/
theorem started_is_installed_iff {out : GenerationOutput} {warnings : List Problem}
    {script : Artifact} (hcheck : r.manifest.check = .ok warnings)
    (h : (generate s n r).1 = .ok out) (hscript : r.manifest.script? = some script)
    (hname : (Path.ofString r.manifest.name).LeadsDown) (hf : f ∈ r.manifest.federates) :
    script ∈ out.artifacts.artifacts ∧
    (∃ before after, script.content =
      before ++ linesText (LaunchScript.startLines r.manifest.name f.name) ++ after) ∧
    ∃ p : PlannedUnit, p.role = .federate f ∧ p.report s r ∈ out.units ∧
      (∃ doc, p.descriptors s r = [doc] ∧
        (p.artifacts s r).get? "CMakeLists.txt" =
          some { path := "CMakeLists.txt", content := doc.render } ∧
        (CMake.InstallsInto doc (r.manifest.name ++ "_" ++ f.name)
          (script.directory r.outputRoot) ↔
            (p.toolchain s r).native = some (.ofTooling .cmake))) ∧
      (s.registry = .builtin →
        ((p.toolchain s r).native = some (.ofTooling .cmake) ↔
          f.resolvePlatform r.manifest.target ∉ [.zephyr, .espIdf])) := by
  obtain ⟨hfederated, -, -⟩ := Manifest.of_script? hscript
  obtain ⟨ps, hplanned, rfl⟩ := exists_planned h
  obtain ⟨p, hp, hrole⟩ := hplanned.exists_federate hfederated hf
  have hunit : p.report s r ∈ ps.map fun p => p.report s r := List.mem_map_of_mem hp
  rw [← GenerationOutput.units_ofUnits s r ps r.manifest.script?] at hunit
  refine ⟨mem_artifacts_of_script? hscript, r.manifest.exists_startLines hscript hf, p, hrole,
    hunit, ?_, fun hregistry => ?_⟩
  · obtain ⟨doc, hdoc, hget, hinstalls⟩ := p.exists_descriptor s r
    refine ⟨doc, hdoc, hget, fun hinto => ?_, fun hnative => ?_⟩
    · rw [← hinstalls, installs, hinto.2.1]
      rfl
    · rw [p.descriptors_of_cmake hnative] at hdoc
      obtain rfl := List.singleton_inj.1 hdoc
      obtain ⟨htarget, hinstall, root, hroot, hgoal⟩ := p.installsInto_descriptor hrole
      refine ⟨htarget, hinstall, root, hroot, fun cwd => ?_⟩
      rw [hgoal, hplanned.directory_eq hp, hrole]
      exact (Manifest.dropLast_goal_script hname hscript hcheck hf r.outputRoot cwd).symm
  · have hplatform : p.platform r = f.resolvePlatform r.manifest.target := by
      rw [PlannedUnit.platform, hrole]
      rfl
    rw [← hplatform, PlannedUnit.toolchain, hregistry]
    exact Registry.native_toolchainFor_builtin _

end

/-! ## A federation of two platforms -/

/-- A federate on the platform of the application, and one on Zephyr. -/
def mixedFederates : List Federate :=
  [{ name := "a", ordinal := some 0 }, { name := "b", platform := .zephyr, ordinal := some 1 }]

/-- A manifest of them. -/
def mixedText : String :=
  "project.name = \"App\"\n[[federates]]\nname = \"a\"\n" ++
    "[[federates]]\nname = \"b\"\nplatform = \"zephyr\""

theorem parse_mixedText :
    Manifest.parse mixedText = .ok (hostRequest mixedFederates).manifest := by
  decide +kernel

theorem check_mixed : (hostRequest mixedFederates).manifest.check = .ok [] := by
  have hproblems : (hostRequest mixedFederates).manifest.problems = [] := by decide +kernel
  refine Manifest.check_eq_ok_iff.2 ⟨hproblems.symm, ?_⟩
  rw [hproblems]
  exact nofun

theorem fst_generate_mixed :
    (generate {} .perPass (hostRequest mixedFederates)).1 =
      .ok (.ofUnits {} (hostRequest mixedFederates) (hostUnits mixedFederates)
        (hostRequest mixedFederates).manifest.script?) :=
  fst_generate_host rfl (by decide +kernel)

theorem exists_script_mixed :
    ∃ script, (hostRequest mixedFederates).manifest.script? = some script :=
  ⟨_, rfl⟩

/-- The executable that the script starts for the federate on the platform of the application is
what the descriptor of that federate installs. -/
theorem native_federate_is_installed :
    ∃ out script, (generate {} .perPass (hostRequest mixedFederates)).1 = .ok out ∧
      (hostRequest mixedFederates).manifest.check = .ok [] ∧
      (hostRequest mixedFederates).manifest.script? = some script ∧
      ∃ p : PlannedUnit, p.report {} (hostRequest mixedFederates) ∈ out.units ∧
        ∃ doc, p.descriptors {} (hostRequest mixedFederates) = [doc] ∧
          CMake.InstallsInto doc "App_a" (script.directory "out") := by
  obtain ⟨script, hscript⟩ := exists_script_mixed
  have hname : (Path.ofString (hostRequest mixedFederates).manifest.name).LeadsDown :=
    ⟨"App", fun l => rfl⟩
  obtain ⟨-, -, p, -, hunit, ⟨doc, hdoc, -, hinstalls⟩, hbuiltin⟩ :=
    started_is_installed_iff check_mixed fst_generate_mixed hscript hname (.head _)
  exact ⟨_, script, fst_generate_mixed, check_mixed, hscript, p, hunit, doc, hdoc,
    hinstalls.2 ((hbuiltin rfl).2 (by decide))⟩

/-- **What a script starts need not be installed.** A federation that is built on the host as a
whole, but for one federate on Zephyr, is read and accepted. Its script starts an executable for
that federate as well, whose descriptor has a target of another name and installs nothing. -/
theorem zephyr_federate_is_not_installed :
    ∃ out script, Manifest.parse mixedText = .ok (hostRequest mixedFederates).manifest ∧
      (hostRequest mixedFederates).manifest.check = .ok [] ∧
      (generate {} .perPass (hostRequest mixedFederates)).1 = .ok out ∧
      script ∈ out.artifacts.artifacts ∧ script.path = "App/bin/App" ∧
      (∃ before after, script.content =
        before ++ linesText (LaunchScript.startLines "App" "b") ++ after) ∧
      ∃ p : PlannedUnit, p.report {} (hostRequest mixedFederates) ∈ out.units ∧
        (p.report {} (hostRequest mixedFederates)).federate = some "b" ∧
        ∃ doc, p.descriptors {} (hostRequest mixedFederates) = [doc] ∧
          settingsOf doc "LF_MAIN_TARGET" = [["app"]] ∧ argumentsOf doc "install" = [] := by
  obtain ⟨script, hscript⟩ := exists_script_mixed
  obtain ⟨-, -, hpath⟩ := Manifest.of_script? hscript
  have hb : { name := "b", platform := .zephyr, ordinal := some 1 } ∈
      (hostRequest mixedFederates).manifest.federates := .tail _ (.head _)
  have hstart := Manifest.exists_startLines hscript hb
  refine ⟨_, script, parse_mixedText, check_mixed, fst_generate_mixed,
    mem_artifacts_of_script? hscript, hpath, hstart, ?_⟩
  rw [GenerationOutput.units_ofUnits]
  refine ⟨_, .tail _ (.head _), rfl, _, rfl, ?_, ?_⟩
  · decide +kernel
  · decide +kernel

end ReactorDeploy
