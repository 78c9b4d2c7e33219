import ReactorDeploy.Command.Run
import ReactorDeploy.Proofs.Federation.Enumeration

/-!
# When nothing is generated

Generation is blocked where there is no manifest, where the nearest one cannot be read, is malformed
or is not accepted, and where its federation needs more addresses than there are (`Blocked`). Then
the command fails and leaves the file tree as it is. Otherwise every unit is composed, from the tree
as it is, and only then is anything written.
-/

namespace ReactorDeploy

open Files (Location Tree)
open Net (Allocator)

/-! ## The nearest project -/

namespace Project

/-- A directory is the nearest one with a manifest file, at a location or above it. -/
structure IsNearest (t : Tree) (cwd l : Location) : Prop where
  above : l <+: cwd
  found : hasManifest t l = true
  nearest : ∀ l', l' <+: cwd → hasManifest t l' = true → l' <+: l

variable {t : Tree} {cwd l l' : Location}

/-- There is one nearest directory at most. -/
theorem IsNearest.eq (h : IsNearest t cwd l) (h' : IsNearest t cwd l') : l = l' := by
  have hle := h'.nearest l h.above h.found
  have hge := h.nearest l' h'.above h'.found
  exact hle.eq_of_length (Nat.le_antisymm hle.length_le hge.length_le)

/-- The search comes to the nearest directory with a manifest file, or there is none. -/
theorem nearestUp_cases (t : Tree) (names : List String) :
    (nearestUp t names = none ∧ ∀ l, l <+: names.reverse → hasManifest t l = false) ∨
      ∃ l, nearestUp t names = some l ∧ IsNearest t names.reverse l := by
  induction names with
  | nil =>
    cases hroot : hasManifest t [] with
    | false =>
      refine .inl ⟨by simp [nearestUp, hroot], fun l hl => ?_⟩
      rw [List.prefix_nil.1 hl, hroot]
    | true => exact .inr ⟨[], by simp [nearestUp, hroot], List.prefix_rfl, hroot, fun _ hl _ => hl⟩
  | cons name above ih =>
    have hhere : (name :: above).reverse = above.reverse ++ [name] := List.reverse_cons
    cases hfound : hasManifest t (name :: above).reverse with
    | true =>
      exact .inr ⟨_, by simp only [nearestUp, hfound, if_true], List.prefix_rfl, hfound,
        fun _ hl _ => hl⟩
    | false =>
      have hup : nearestUp t (name :: above) = nearestUp t above := by
        simp only [nearestUp, hfound, Bool.false_eq_true, if_false]
      -- Of the directories to look in, the first one is out and the others are those above it.
      have hrest : ∀ l, l <+: (name :: above).reverse → hasManifest t l = true →
          l <+: above.reverse := by
        intro l hl hl'
        rw [hhere, List.prefix_concat_iff, ← hhere] at hl
        refine hl.resolve_left fun heq => ?_
        rw [heq, hfound] at hl'
        cases hl'
      rw [hup]
      refine ih.imp (fun ⟨hnone, hall⟩ => ⟨hnone, fun l hl => ?_⟩) fun ⟨l, hl, hnearest⟩ => ?_
      · rw [← Bool.not_eq_true]
        exact fun hl' => Bool.false_ne_true ((hall l (hrest l hl hl')).symm.trans hl')
      · refine ⟨l, hl, hnearest.above.trans ?_, hnearest.found, fun l' hl' hfound' => ?_⟩
        · rw [hhere]
          exact List.prefix_append _ _
        · exact hnearest.nearest l' (hrest l' hl' hfound') hfound'

theorem nearest?_cases (t : Tree) (cwd : Location) :
    (nearest? t cwd = none ∧ ∀ l, l <+: cwd → hasManifest t l = false) ∨
      ∃ l, nearest? t cwd = some l ∧ IsNearest t cwd l := by
  have hcases := nearestUp_cases t cwd.reverse
  rw [List.reverse_reverse] at hcases
  exact hcases

theorem nearest?_of_none (h : ∀ l, l <+: cwd → hasManifest t l = false) :
    nearest? t cwd = none := by
  rcases nearest?_cases t cwd with ⟨hnone, -⟩ | ⟨l, -, hl⟩
  · exact hnone
  · exact absurd hl.found (by simp [h l hl.above])

theorem nearest?_of_isNearest (h : IsNearest t cwd l) : nearest? t cwd = some l := by
  rcases nearest?_cases t cwd with ⟨-, hall⟩ | ⟨l', hsome, hl'⟩
  · exact absurd h.found (by simp [hall l h.above])
  · rw [hsome, hl'.eq h]

/-- The text of the manifest file in a directory. -/
def manifestText (t : Tree) (l : Location) : Except Files.FileError String :=
  t.readText [] (Files.Path.ofString (manifestPath l))

/-- A manifest file that was found is there when it is read. -/
theorem load_of_hasManifest (h : hasManifest t l = true) :
    load t [] (manifestPath l) = match manifestText t l with
      | .error e => .error (.unreadable (manifestPath l) e)
      | .ok text => (Manifest.parse text).mapError .unusable := by
  have hpresent : t.isPresent [] (Files.Path.ofString (manifestPath l)) = true := by
    unfold hasManifest Files.Tree.isFile at h
    unfold Files.Tree.isPresent
    cases hstat : t.stat [] (Files.Path.ofString (manifestPath l)) with
    | error e =>
      rw [hstat] at h
      cases h
    | ok found => rfl
  unfold load
  simp only [hpresent, Bool.not_true, Bool.false_eq_true, if_false]
  rfl

/-- What is found is the manifest in the nearest directory, or why it cannot be used. -/
theorem find_of_isNearest (h : IsNearest t cwd l) :
    find t cwd = match manifestText t l with
      | .error e => .error (manifestPath l, .unreadable (manifestPath l) e)
      | .ok text => match Manifest.parse text with
        | .error e => .error (manifestPath l, .unusable e)
        | .ok m => .ok (some (m, Files.locationText l)) := by
  unfold find
  rw [nearest?_of_isNearest h]
  simp only [load_of_hasManifest h.found]
  cases manifestText t l with
  | error e => rfl
  | ok text =>
    cases hparse : Manifest.parse text with
    | error e => simp only [hparse, Except.mapError]
    | ok m => simp only [hparse, Except.mapError]

/-- The nearest manifest of a location can be read, and this is what it says. -/
structure Reads (t : Tree) (cwd l : Location) (m : Manifest) : Prop where
  isNearest : IsNearest t cwd l
  parsed : ∃ text, manifestText t l = .ok text ∧ Manifest.parse text = .ok m

end Project

namespace Command

open Project (IsNearest Reads hasManifest manifestPath manifestText)

/-! ## Obstacles -/

/-- What is in the way of generating anything, with the notes that come before: no manifest file at
or above the working directory, a nearest one that is no text, a text that is no manifest, a
manifest that is not accepted, or a federation that needs more addresses than there are. -/
inductive Blocked (t : Tree) (cwd : Location) (overrides : Overrides) : String → Failure → Prop where
  | noProject : (∀ l, l <+: cwd → hasManifest t l = false) → Blocked t cwd overrides "" .noProject
  | unreadable {l : Location} {e : Files.FileError} :
      IsNearest t cwd l → manifestText t l = .error e →
      Blocked t cwd overrides "" (.loading (manifestPath l) (.unreadable (manifestPath l) e))
  | malformed {l : Location} {text : String} {e : ManifestError} :
      IsNearest t cwd l → manifestText t l = .ok text → Manifest.parse text = .error e →
      Blocked t cwd overrides "" (.loading (manifestPath l) (.unusable e))
  | invalid {l : Location} {m : Manifest} {e : Manifest.Invalid} :
      Reads t cwd l m → (overrides.apply m).check = .error e →
      Blocked t cwd overrides (problemNotes e.problems) (.nothingGenerated e)
  | exhausted {l : Location} {m : Manifest} {warnings : List Problem} :
      Reads t cwd l m → (overrides.apply m).check = .ok warnings →
      (overrides.apply m).isFederated = true → (overrides.apply m).target.isConstrained = true →
      (overrides.apply m).Exhausts →
      Blocked t cwd overrides (problemNotes warnings)
        (.generating (overrides.apply m).name (.addressSpaceExhausted Allocator.defaultNetwork))

/-- Nothing is in the way: the nearest manifest of a location is accepted with the options of the
command line, and there are enough addresses. -/
structure Ready (t : Tree) (cwd : Location) (overrides : Overrides) (l : Location) (m : Manifest)
    (warnings : List Problem) : Prop where
  reads : ∃ m', Reads t cwd l m' ∧ m = overrides.apply m'
  accepted : m.check = .ok warnings
  enough : m.isFederated = true → m.target.isConstrained = true → ¬ m.Exhausts

section
variable {t : Tree} {cwd l : Location} {overrides : Overrides} {m : Manifest}
  {warnings : List Problem}

theorem loadProject_of_none (h : ∀ l, l <+: cwd → hasManifest t l = false) :
    loadProject t cwd overrides = .error .noProject := by
  unfold loadProject Project.find
  rw [Project.nearest?_of_none h]

theorem loadProject_of_isNearest (h : IsNearest t cwd l) :
    loadProject t cwd overrides = match manifestText t l with
      | .error e => .error (.loading (manifestPath l) (.unreadable (manifestPath l) e))
      | .ok text => match Manifest.parse text with
        | .error e => .error (.loading (manifestPath l) (.unusable e))
        | .ok m => .ok (overrides.apply m, Files.locationText l) := by
  unfold loadProject
  rw [Project.find_of_isNearest h]
  cases manifestText t l with
  | error e => rfl
  | ok text =>
    cases hparse : Manifest.parse text with
    | error e => simp only [hparse]
    | ok m => simp only [hparse]

theorem loadProject_of_reads (h : Reads t cwd l m) :
    loadProject t cwd overrides = .ok (overrides.apply m, Files.locationText l) := by
  obtain ⟨text, htext, hparse⟩ := h.parsed
  rw [loadProject_of_isNearest h.isNearest]
  simp only [htext, hparse]

/-- Either something is in the way, or nothing is. -/
theorem blocked_or_ready (t : Tree) (cwd : Location) (overrides : Overrides) :
    (∃ notes e, Blocked t cwd overrides notes e) ∨
      ∃ l m warnings, Ready t cwd overrides l m warnings := by
  rcases Project.nearest?_cases t cwd with ⟨-, hnone⟩ | ⟨l, -, hl⟩
  · exact .inl ⟨_, _, .noProject hnone⟩
  cases htext : manifestText t l with
  | error e => exact .inl ⟨_, _, .unreadable hl htext⟩
  | ok text =>
    cases hparse : Manifest.parse text with
    | error e => exact .inl ⟨_, _, .malformed hl htext hparse⟩
    | ok m =>
      have hreads : Reads t cwd l m := ⟨hl, text, htext, hparse⟩
      cases hcheck : (overrides.apply m).check with
      | error e => exact .inl ⟨_, _, .invalid hreads hcheck⟩
      | ok warnings =>
        by_cases hout : (overrides.apply m).isFederated = true ∧
            (overrides.apply m).target.isConstrained = true ∧ (overrides.apply m).Exhausts
        · exact .inl ⟨_, _, .exhausted hreads hcheck hout.1 hout.2.1 hout.2.2⟩
        · exact .inr ⟨l, _, warnings, ⟨m, hreads, rfl⟩, hcheck, fun hfederated hconstrained he =>
            hout ⟨hfederated, hconstrained, he⟩⟩

end

/-! ## Composition -/

/-- What is generated for a project, and written below `root`. -/
def projectRequest (t : Tree) (cwd : Location) (m : Manifest) (root workspace : String) :
    Request where
  manifest := m
  workspace := .ofDirectory t cwd workspace
  outputRoot := root

/-- Whichever numbering a manifest asks for, a process starts with a fresh allocator. -/
theorem allocator?_forManifest (m : Manifest) :
    (Numbering.forManifest m .fresh).allocator? = some .fresh := by
  unfold Numbering.forManifest
  split <;> rfl

/-- Every unit of a project has been composed, from the file tree as it is, and this is what came
of it. -/
def Composed (t : Tree) (cwd : Location) (m : Manifest) (root workspace : String)
    (output : GenerationOutput) : Prop :=
  composeProject t cwd m root workspace = .ok output ∧
    ∃ ps : List PlannedUnit, ps.map PlannedUnit.role = m.roles ∧
      output = .ofUnits {} (projectRequest t cwd m root workspace) ps m.script?

theorem exists_composed_of_ready {t : Tree} {cwd l : Location} {overrides : Overrides}
    {m : Manifest} {warnings : List Problem} (h : Ready t cwd overrides l m warnings)
    (root workspace : String) : ∃ output, Composed t cwd m root workspace output := by
  obtain ⟨output, houtput⟩ := exists_generate_of_fresh (s := {})
    (r := projectRequest t cwd m root workspace) (allocator?_forManifest m) h.enough
  obtain ⟨ps, hplanned, hps⟩ := exists_planned houtput
  exact ⟨output, houtput, ps, hplanned.roles_eq, hps⟩

theorem composeProject_of_exhausts {m : Manifest} (hfederated : m.isFederated = true)
    (hconstrained : m.target.isConstrained = true) (hexhausts : m.Exhausts) (t : Tree)
    (cwd : Location) (root workspace : String) :
    composeProject t cwd m root workspace =
      .error (.addressSpaceExhausted Allocator.defaultNetwork) := by
  have hgenerate := fst_generate_of_fresh (s := {}) (r := projectRequest t cwd m root workspace)
    hfederated hconstrained (allocator?_forManifest m)
  rw [if_pos (show (projectRequest t cwd m root workspace).manifest.Exhausts from hexhausts)]
    at hgenerate
  exact hgenerate

/-! ## Generating -/

section
variable {t : Tree} {cwd : Location} {overrides : Overrides} (out workspace : Option String)
  (json : Bool)

/-- With something in the way, the command says so and leaves the tree alone. -/
theorem run_of_blocked {notes : String} {e : Failure} (h : Blocked t cwd overrides notes e) :
    (Action.generate out workspace overrides json).run t cwd = .failure t notes e := by
  show runGenerate t cwd out workspace overrides json = _
  unfold runGenerate
  cases h with
  | noProject hnone => rw [loadProject_of_none hnone]
  | unreadable hl htext =>
    rw [loadProject_of_isNearest hl]
    simp only [htext]
  | malformed hl htext hparse =>
    rw [loadProject_of_isNearest hl]
    simp only [htext, hparse]
  | invalid hreads hcheck =>
    rw [loadProject_of_reads hreads]
    simp only [hcheck]
  | exhausted hreads hcheck hfederated hconstrained hexhausts =>
    rw [loadProject_of_reads hreads]
    simp only [hcheck, composeProject_of_exhausts hfederated hconstrained hexhausts]

/-- With nothing in the way, the command writes what has been composed, into the tree that it was
composed from, and fails just if writing does. -/
theorem run_of_ready {l : Location} {m : Manifest} {warnings : List Problem}
    (h : Ready t cwd overrides l m warnings) {output : GenerationOutput}
    (houtput : Composed t cwd m (outputRoot (Files.locationText l) out)
      (workspaceRoot (Files.locationText l) workspace) output) :
    let o := (Action.generate out workspace overrides json).run t cwd
    let written := output.artifacts.writeAll t cwd (outputRoot (Files.locationText l) out)
    o.tree = written.2 ∧ (o.exitCode = 0 ↔ ∃ paths, written.1 = .ok paths) := by
  obtain ⟨m', hreads, rfl⟩ := h.reads
  intro o written
  have ho : o = runGenerate t cwd out workspace overrides json := rfl
  unfold runGenerate at ho
  rw [loadProject_of_reads hreads] at ho
  simp only [h.accepted, houtput.1] at ho
  obtain ⟨result, t', hwritten⟩ : ∃ result t', written = (result, t') := ⟨_, _, rfl⟩
  rw [show output.artifacts.writeAll t cwd (outputRoot (Files.locationText l) out) = (result, t')
    from hwritten] at ho
  rw [ho, hwritten]
  cases result with
  | error e => exact ⟨rfl, iff_of_false (by simp [Outcome.failure]) nofun⟩
  | ok paths => exact ⟨rfl, iff_of_true rfl ⟨paths, rfl⟩⟩

end

/-- **Nothing is written before everything is composed.** Take any file tree, working directory and
options. With something in the way, the command fails, says what it is, and leaves the tree exactly
as it was: where there is no manifest, where it cannot be read as one, where it is not accepted, and
where there are not enough addresses. With nothing in the way, every unit is composed from the tree
as it was, and then the tree is what writing the whole output into it leaves. -/
theorem generate_composes_before_writing (t : Tree) (cwd : Location) (out workspace : Option String)
    (overrides : Overrides) (json : Bool) :
    let o := (Action.generate out workspace overrides json).run t cwd
    (∀ notes e, Blocked t cwd overrides notes e → o.exitCode = 1 ∧ o.tree = t ∧ o.stdout = "" ∧
      o.stderr = notes ++ "error: " ++ e.message ++ "\n") ∧
    ((∃ notes e, Blocked t cwd overrides notes e) ∨
      ∃ l m warnings output, Ready t cwd overrides l m warnings ∧
        Composed t cwd m (outputRoot (Files.locationText l) out)
          (workspaceRoot (Files.locationText l) workspace) output ∧
        let written := output.artifacts.writeAll t cwd (outputRoot (Files.locationText l) out)
        o.tree = written.2 ∧ (o.exitCode = 0 ↔ ∃ paths, written.1 = .ok paths)) := by
  intro o
  constructor
  · intro notes e h
    have ho : o = .failure t notes e := run_of_blocked out workspace json h
    rw [ho]
    exact ⟨rfl, rfl, rfl, rfl⟩
  · refine (blocked_or_ready t cwd overrides).imp_right fun ⟨l, m, warnings, hready⟩ => ?_
    obtain ⟨output, houtput⟩ := exists_composed_of_ready hready
      (outputRoot (Files.locationText l) out) (workspaceRoot (Files.locationText l) workspace)
    exact ⟨l, m, warnings, output, hready, houtput,
      run_of_ready out workspace json hready houtput⟩

/-- The text of the manifest of a crowded federation. -/
def crowdedText : String :=
  "project.name = \"App\"\n" ++
  "[target]\n" ++
  "platform = \"zephyr\"\n" ++
  "net-interface = \"sicslowpan\"\n" ++
  "[[federates]]\n" ++
  "name = \"a\"\n" ++
  "[[federates.interfaces]]\n" ++
  "address = \"FD01::ffff:ffff:ffff:ffff\"\n" ++
  "[[federates]]\n" ++
  "name = \"b\"\n"

/-- A project with that manifest, and a directory in it. -/
def crowdedTree : Tree :=
  ⟨[(["p"], .directory), (["p", "ucgen.toml"], .file { content := crowdedText.toUTF8 }),
    (["p", "src"], .directory)]⟩

theorem reads_crowdedTree : Reads crowdedTree ["p", "src"] ["p"] crowded := by
  refine ⟨⟨⟨["src"], rfl⟩, by decide +kernel, fun l hl hfound => ?_⟩, crowdedText, ?_, ?_⟩
  · have hnone : hasManifest crowdedTree ["p", "src"] = false := by decide +kernel
    rw [show ["p", "src"] = ["p"] ++ ["src"] from rfl, List.prefix_concat_iff] at hl
    refine hl.resolve_left fun heq => ?_
    rw [heq] at hfound
    cases hnone.symm.trans hfound
  · decide +kernel
  · decide +kernel

/-- From within the project, the command says that the addresses are exhausted, and nothing is
written. -/
theorem crowded_project_is_left_alone :
    let o := (Action.generate none none {} false).run crowdedTree ["p", "src"]
    o.exitCode = 1 ∧ o.tree = crowdedTree ∧
      o.stderr = "error: generating 'App': address space fd01::/64 exhausted\n" := by
  have hblocked : Blocked crowdedTree ["p", "src"] {} (problemNotes []) _ :=
    .exhausted reads_crowdedTree (by decide +kernel) rfl rfl (by decide +kernel)
  obtain ⟨hcode, htree, -, hstderr⟩ :=
    (generate_composes_before_writing crowdedTree ["p", "src"] none none {} false).1 _ _ hblocked
  refine ⟨hcode, htree, hstderr.trans ?_⟩
  decide +kernel

end Command

end ReactorDeploy
