import ReactorDeploy.Manifest.Document
import ReactorDeploy.Proofs.Config.Reading
import ReactorDeploy.Proofs.Generation.Likeness

/-!
# What the configuration of a unit assigns

The configuration file of a unit is read as the properties of the layers that it is composed of as
long as every line of these layers stays one line. All of them do but two, which only the native
generators write: the comment that names the project, and the property that names the federate
(`Deployment.exists_systemConfig_eq`). So a line feed in a name is the one way to assign something
else (`config_reads_as_composed_iff`), and a name may have one (`line_feed_adds_assignment`).
-/

namespace ReactorDeploy

open Config (Fragment Line assignment? composedLayers readAssignments strayAssignments)

/-! ## Plain layers -/

/-- The configuration of a board is plain if the table is. -/
theorem Board.Table.isPlain_of_configFor? {t : Table}
    (ht : ∀ e ∈ t, ∀ line ∈ e.fragment, line.isPlain = true) {board : Option String} {f : Fragment}
    (h : t.configFor? board = some f) : ∀ line ∈ f, line.isPlain = true := by
  obtain ⟨name, -, hfound⟩ := Option.bind_eq_some_iff.1 h
  dsimp only at hfound
  split at hfound
  · cases hfound
  · cases hfound
    intro line hline
    obtain ⟨e, he, hline⟩ := List.mem_flatMap.1 hline
    exact ht e (List.mem_filter.1 he).1 line hline

theorem Board.isPlain_builtin : ∀ e ∈ Board.builtin, ∀ line ∈ e.fragment, line.isPlain = true := by
  decide +kernel

theorem Net.Ipv6.lineFeed_notMem_text (x : Net.Ipv6) : '\n' ∉ x.text.toList :=
  fun hmem => (x.plain_of_mem_text _ hmem).2 rfl

namespace Zephyr

open Config.Fragment (flag int str)

/-- What is generated on the constrained transport is plain. -/
theorem isPlain_sicslowpanConfig (x : Net.Ipv6) (logging : LogLevel) :
    (sicslowpanConfig x logging).all Line.isPlain = true := by
  have haddress : x.text.toList.all (· != '\n') = true :=
    Config.all_ne_lineFeed_iff.2 x.lineFeed_notMem_text
  unfold sicslowpanConfig
  simp only [List.all_cons, List.all_nil, flag, int, str, Line.isPlain, Config.Value.isPlain,
    haddress]
  -- A text is much slower to evaluate than the list of its characters.
  repeat rw [String.toList_ofList]
  rfl

/-- What is generated for Zephyr is plain. -/
theorem isPlain_generatedConfig (u : Deployment) :
    ∀ line ∈ generatedConfig u, line.isPlain = true := by
  have hnetworking : posixNetworking.all Line.isPlain = true := by decide
  have hworker : workerDefaults.all Line.isPlain = true := by
    unfold workerDefaults
    simp only [List.all_cons, List.all_nil, int, str, Line.isPlain, Config.Value.isPlain]
    repeat rw [String.toList_ofList]
    rfl
  refine List.all_eq_true.1 ?_
  unfold generatedConfig
  cases u.network with
  | isolated =>
    rw [standaloneConfig, List.all_append, List.all_append, hnetworking, hworker]
    decide
  | loopback =>
    rw [tcpConfig, List.all_append, List.all_append, List.all_append, hnetworking, hworker]
    decide
  | ipv6 x => exact isPlain_sicslowpanConfig x _

end Zephyr

namespace Deployment

/-- What the network of a native unit needs is plain if the name of its federate has no line
feed. -/
theorem isPlain_networkConfig {u : Deployment} (h : ∀ name ∈ u.federateName?, '\n' ∉ name.toList) :
    ∀ line ∈ u.networkConfig, line.isPlain = true := by
  have hfederate : (Fragment.str "LF_FEDERATE" (u.federateName?.getD "")).isPlain = true := by
    refine Line.isPlain_property (by decide) (.inl rfl) ?_
    cases hname : u.federateName? with
    | none => exact List.not_mem_nil
    | some name => exact h name hname
  unfold networkConfig
  cases u.network with
  | isolated => exact nofun
  | loopback =>
    simp only [List.forall_mem_cons, hfederate]
    decide +kernel
  | ipv6 x =>
    have haddress : (Fragment.str "NET_CONFIG_MY_IPV6_ADDR" x.text).isPlain = true :=
      Line.isPlain_property (by decide) (.inl rfl) x.lineFeed_notMem_text
    simp only [List.forall_mem_cons, hfederate, haddress]
    decide +kernel

/-- Behind the line that names the project, the generated layer of a native unit is plain if the
name of its federate has no line feed. -/
theorem exists_systemConfig_eq (u : Deployment) :
    ∃ rest, u.systemConfig = .comment ("System configuration for " ++ u.projectName) :: rest ∧
      ((∀ name ∈ u.federateName?, '\n' ∉ name.toList) → ∀ line ∈ rest, line.isPlain = true) := by
  refine ⟨[.comment "This is a generated file, do not edit.",
    .heading "Runtime sizing",
    Fragment.raw "LF_EVENT_QUEUE_SIZE" (toString u.sizing.events.toNat),
    Fragment.raw "LF_REACTION_QUEUE_SIZE" (toString u.sizing.reactions.toNat),
    Fragment.raw "LF_LOG_LEVEL" u.options.logging.value.constant] ++
    platformConfig u.platform ++ u.networkConfig, rfl, fun h => ?_⟩
  have hcount : ∀ n : Nat, '\n' ∉ (toString n).toList := fun n => by
    simp [lineFeed_notMem_toDigits]
  have hevents : (Fragment.raw "LF_EVENT_QUEUE_SIZE" (toString u.sizing.events.toNat)).isPlain =
      true := Line.isPlain_property (by decide) (.inr rfl) (hcount _)
  have hreactions : (Fragment.raw "LF_REACTION_QUEUE_SIZE"
      (toString u.sizing.reactions.toNat)).isPlain = true :=
    Line.isPlain_property (by decide) (.inr rfl) (hcount _)
  have hlevel : (Fragment.raw "LF_LOG_LEVEL" u.options.logging.value.constant).isPlain = true := by
    cases u.options.logging.value <;> decide
  have hplatform : ∀ line ∈ platformConfig u.platform, line.isPlain = true := by
    cases u.platform <;> decide
  simp only [List.forall_mem_append, List.forall_mem_cons, hevents, hreactions, hlevel]
  exact ⟨⟨by decide, hplatform⟩, isPlain_networkConfig h⟩

/-- The configuration of a board that is known from the start is plain. -/
theorem isPlain_boardConfig {u : Deployment} (hboards : u.boards = Board.builtin) :
    ∀ f ∈ u.boardConfig?, ∀ line ∈ f, line.isPlain = true := fun _ hf =>
  Board.Table.isPlain_of_configFor? (hboards ▸ Board.isPlain_builtin) hf

/-- The properties of the layers that the configuration of a unit is composed of, with their written
values, in order. -/
def assigned (u : Deployment) (generated : Fragment) : List (String × String) :=
  (composedLayers u.order generated u.boardConfig?).flatMap Fragment.assignments

/-- A file that is composed of plain layers is read as their properties. -/
theorem readAssignments_compose_of_isPlain {u : Deployment} {generated : Fragment}
    (hboards : u.boards = Board.builtin) (h : ∀ line ∈ generated, line.isPlain = true) :
    readAssignments (Config.compose u.order generated u.boardConfig?) = u.assigned generated := by
  rw [Config.readAssignments_compose]
  refine List.flatMap_congr fun f hf => Fragment.readAssignments_render ?_
  obtain ⟨layer, -, hlayer⟩ := List.mem_filterMap.1 hf
  cases layer with
  | generated => exact Option.some.inj hlayer ▸ h
  | board => exact isPlain_boardConfig hboards f hlayer

/-- The configuration of a native unit assigns what the line with the name of the project adds, and
then the properties of its layers, if the name of the federate has no line feed. -/
theorem readAssignments_composedConfig {u : Deployment} (horder : u.order = Config.defaultOrder)
    (hboards : u.boards = Board.builtin) (h : ∀ name ∈ u.federateName?, '\n' ∉ name.toList) :
    readAssignments u.composedConfig =
      strayAssignments u.projectName ++ u.assigned u.systemConfig := by
  obtain ⟨rest, hrest, hplain⟩ := u.exists_systemConfig_eq
  have hboth := readAssignments_compose_of_isPlain hboards (hplain h)
  rw [assigned, Config.readAssignments_compose, horder, Config.composedLayers_defaultOrder,
    List.flatMap_cons] at hboth
  have hfirst : readAssignments (Fragment.render u.systemConfig) =
      strayAssignments u.projectName ++ readAssignments (Fragment.render rest) := by
    rw [hrest, Fragment.readAssignments_render_cons, Line.readAssignments_comment,
      Config.strayAssignments_append_of_notMem (by decide)]
  have hnothing : Fragment.assignments u.systemConfig = Fragment.assignments rest := by
    rw [hrest]
    rfl
  rw [composedConfig, assigned, Config.readAssignments_compose, horder,
    Config.composedLayers_defaultOrder, List.flatMap_cons, List.flatMap_cons, hfirst,
    List.append_assoc, hboth, hnothing, List.flatMap_cons]

/-- The configuration of a federate names it. -/
theorem federate_mem_assigned {u : Deployment} (horder : u.order = Config.defaultOrder)
    (hnetwork : u.network ≠ .isolated) {name : String} (hname : u.federateName? = some name) :
    ("LF_FEDERATE", Text.quoted name) ∈ u.assigned u.systemConfig := by
  have hline : Fragment.str "LF_FEDERATE" name ∈ u.networkConfig := by
    rw [networkConfig, hname]
    cases hkind : u.network with
    | isolated => exact absurd hkind hnetwork
    | loopback => exact .tail _ (.head _)
    | ipv6 x => exact .tail _ (.head _)
  have hassigned : ("LF_FEDERATE", Text.quoted name) ∈ Fragment.assignments u.systemConfig :=
    List.mem_filterMap.2 ⟨_, List.mem_append_right _ hline, rfl⟩
  rw [assigned, horder, Config.composedLayers_defaultOrder, List.flatMap_cons]
  exact List.mem_append_left _ hassigned

/-- The configuration of a native unit is read as the properties of its layers just if the name of
the project adds nothing and that of the federate has no line feed. -/
theorem readAssignments_composedConfig_iff {u : Deployment}
    (horder : u.order = Config.defaultOrder) (hboards : u.boards = Board.builtin)
    (hnetwork : u.network = .isolated → u.federateName? = none) :
    readAssignments u.composedConfig = u.assigned u.systemConfig ↔
      strayAssignments u.projectName = [] ∧ ∀ name ∈ u.federateName?, '\n' ∉ name.toList := by
  constructor
  · intro h
    have hfederate : ∀ name ∈ u.federateName?, '\n' ∉ name.toList := by
      intro name hname hfeed
      have hsome : u.network ≠ .isolated := fun hisolated => by
        rw [hnetwork hisolated] at hname
        cases hname
      have hmem := federate_mem_assigned horder hsome hname
      rw [← h] at hmem
      exact Config.lineFeed_notMem_of_mem_readAssignments hmem
        (Text.lineFeed_mem_quoted_iff.2 hfeed)
    rw [readAssignments_composedConfig horder hboards hfederate] at h
    exact ⟨List.append_left_eq_self.1 h, hfederate⟩
  · rintro ⟨hstray, hfederate⟩
    rw [readAssignments_composedConfig horder hboards hfederate, hstray, List.nil_append]

end Deployment

/-! ## Units -/

theorem Role.federate?_eq_some_iff {role : Role} {f : Federate} :
    role.federate? = some f ↔ role = .federate f := by
  cases role <;> simp [Role.federate?]

/-- From the start it is on Zephyr alone that nothing is built natively. -/
theorem Registry.toolchainFor_builtin_native_eq_none_iff (platform : Platform) :
    (Registry.builtin.toolchainFor platform).native = none ↔ platform = .zephyr := by
  cases platform <;> decide

namespace PlannedUnit

variable {p : PlannedUnit} {r : Request}

/-- From the start, a unit that is built natively is not for Zephyr, and any other one is. -/
theorem platform_eq_zephyr_iff : p.platform r = .zephyr ↔ (p.toolchain {} r).native = none :=
  (Registry.toolchainFor_builtin_native_eq_none_iff _).symm

/-- What the configuration of a native unit without a user's file assigns. -/
theorem exists_config_of_native {tooling : NativeTooling} {file : String}
    (h : (p.toolchain {} r).BuildsNatively tooling file)
    (hnetwork : p.network = .isolated → p.role = .standalone)
    (hoverlay : Config.effectiveOverlay? (r.workspace (p.deployment {} r).layout.generatedFile) =
      none) :
    ∃ layer content, p.layers {} r = [layer] ∧
      (p.artifacts {} r).get? (p.deployment {} r).layout.generatedFile =
        some { path := (p.deployment {} r).layout.generatedFile, content } ∧
      (readAssignments content = (p.deployment {} r).assigned layer ↔
        strayAssignments (p.role.projectName r.manifest.mainName) = [] ∧
          ∀ f, p.role = .federate f → '\n' ∉ f.name.toList) := by
  have hfile : (p.deployment {} r).layout.generatedFile = file := generatedFile_of_layout h.layout
  have hlayers : p.layers {} r = [(p.deployment {} r).systemConfig] := by
    unfold layers
    rw [h.generators]
    rfl
  have hfederate : (p.deployment {} r).network = .isolated →
      (p.deployment {} r).federateName? = none := fun hisolated => by
    rw [Deployment.federateName?, deployment, hnetwork hisolated]
    rfl
  rw [hfile] at hoverlay ⊢
  refine ⟨_, _, hlayers, get?_config_of_native h, ?_⟩
  rw [Config.mergeOverlay, hoverlay,
    Deployment.readAssignments_composedConfig_iff rfl rfl hfederate]
  refine and_congr_right fun _ => ⟨fun hall f hf => hall f.name ?_, fun hall name hname => ?_⟩
  · exact congrArg (fun role => role.federate?.map Federate.name) hf
  · obtain ⟨f, hf, rfl⟩ := Option.map_eq_some_iff.1 hname
    exact hall f (Role.federate?_eq_some_iff.1 hf)

/-- What the configuration of a unit on Zephyr assigns. -/
theorem exists_config_of_zephyr (h : (p.toolchain {} r).BuildsOnZephyr) :
    ∃ layer content, p.layers {} r = [layer] ∧
      (p.artifacts {} r).get? (p.deployment {} r).layout.generatedFile =
        some { path := (p.deployment {} r).layout.generatedFile, content } ∧
      readAssignments content = (p.deployment {} r).assigned layer := by
  have hfile : (p.deployment {} r).layout.generatedFile = "prj_lf.conf" :=
    generatedFile_of_layout h.layout
  have hlayers : p.layers {} r = [Zephyr.generatedConfig (p.deployment {} r)] := by
    unfold layers
    rw [h.generators]
    rfl
  rw [hfile]
  exact ⟨_, _, hlayers, get?_config_of_zephyr h,
    Deployment.readAssignments_compose_of_isPlain rfl (Zephyr.isPlain_generatedConfig _)⟩

end PlannedUnit

/-- **What a configuration file assigns.** Take any unit of a pass with everything as it is from the
start, and no user's file to lay over its configuration. Read line by line, the configuration
file assigns exactly the properties of the layers that it is composed of, in order and with their
written values, just if the unit is for Zephyr or the names in the file keep to their lines: no line
of the project name behind the first one is an assignment, and no line feed is in the name of the
federate. -/
theorem config_reads_as_composed_iff {n : Numbering} {r : Request} {out : GenerationOutput}
    (h : (generate {} n r).1 = .ok out) :
    ∃ ps, r.manifest.Planned n ps ∧ out = .ofUnits {} r ps r.manifest.script? ∧ ∀ p ∈ ps,
      let u := p.deployment {} r
      Config.effectiveOverlay? (r.workspace u.layout.generatedFile) = none →
      ∃ layer content, p.layers {} r = [layer] ∧
        (p.artifacts {} r).get? u.layout.generatedFile =
          some { path := u.layout.generatedFile, content } ∧
        (readAssignments content = u.assigned layer ↔ p.platform r = .zephyr ∨
          strayAssignments (p.role.projectName r.manifest.mainName) = [] ∧
            ∀ f, p.role = .federate f → '\n' ∉ f.name.toList) := by
  obtain ⟨ps, hplanned, hout⟩ := exists_planned h
  refine ⟨ps, hplanned, hout, fun p hp => ?_⟩
  intro u hoverlay
  rcases p.toolchain_cases {} r with ⟨tooling, file, hnative⟩ | hzephyr
  · have hplatform : p.platform r ≠ .zephyr := fun heq => by
      rw [PlannedUnit.platform_eq_zephyr_iff, hnative.native] at heq
      cases heq
    have hnetwork : p.network = .isolated → p.role = .standalone := fun hisolated => by
      rcases hplanned.network_cases hp with ⟨hrole, -⟩ | ⟨f, -, hconnected⟩
      · exact hrole
      · exact absurd hisolated hconnected
    obtain ⟨layer, content, hlayers, hget, hiff⟩ :=
      PlannedUnit.exists_config_of_native hnative hnetwork hoverlay
    exact ⟨layer, content, hlayers, hget, hiff.trans (or_iff_right hplatform).symm⟩
  · have hplatform : p.platform r = .zephyr := PlannedUnit.platform_eq_zephyr_iff.2 hzephyr.native
    obtain ⟨layer, content, hlayers, hget, hread⟩ := PlannedUnit.exists_config_of_zephyr hzephyr
    exact ⟨layer, content, hlayers, hget, iff_of_true hread (.inl hplatform)⟩

/-- The configuration of an application with an ordinary name is read as the properties of its
layers. -/
theorem plain_name_reads_as_composed :
    ∃ out, (generate {} .perPass (namedRequest "App")).1 = .ok out ∧
      out.units = [(namedUnit "App").report {} (namedRequest "App")] ∧
      ∃ layer content, ((namedUnit "App").artifacts {} (namedRequest "App")).get? "lf.conf" =
          some { path := "lf.conf", content } ∧
        readAssignments content =
          ((namedUnit "App").deployment {} (namedRequest "App")).assigned layer := by
  have hout := fst_generate_named {} .perPass "App"
  refine ⟨_, hout, rfl, ?_⟩
  obtain ⟨ps, hplanned, -, hreads⟩ := config_reads_as_composed_iff hout
  obtain rfl := hplanned.eq_of_standalone rfl
  obtain ⟨layer, content, -, hget, hiff⟩ := hreads _ (.head _) rfl
  exact ⟨layer, content, hget, hiff.2 (.inr ⟨rfl, nofun⟩)⟩

/-- The name of an application with a second line that is an assignment. -/
def assigningName : String :=
  "App\nCONFIG_NET_TCP=n"

/-- **A name may assign something.** The name of an application may have such a line. It is accepted,
and its configuration has the assignment before all that it is composed of. -/
theorem line_feed_adds_assignment :
    let r := namedRequest assigningName
    let u := (namedUnit assigningName).deployment {} r
    Manifest.parse "project.name = \"App\\nCONFIG_NET_TCP=n\"\n" = .ok r.manifest ∧
      r.manifest.check = .ok [] ∧
      ∃ out content, (generate {} .perPass r).1 = .ok out ∧
        out.units = [(namedUnit assigningName).report {} r] ∧
        ((namedUnit assigningName).artifacts {} r).get? "lf.conf" =
          some { path := "lf.conf", content } ∧
        readAssignments content = ("NET_TCP", "n") :: u.assigned u.systemConfig := by
  intro r u
  have hparse : Manifest.parse "project.name = \"App\\nCONFIG_NET_TCP=n\"\n" = .ok r.manifest := by
    decide +kernel
  have hnative : ((namedUnit assigningName).toolchain {} r).BuildsNatively .cmake "lf.conf" :=
    ⟨rfl, rfl, rfl, rfl⟩
  refine ⟨hparse, rfl, _, _, fst_generate_named {} .perPass assigningName, rfl,
    PlannedUnit.get?_config_of_native hnative, ?_⟩
  have hreads : readAssignments u.composedConfig =
      strayAssignments assigningName ++ u.assigned u.systemConfig :=
    Deployment.readAssignments_composedConfig rfl rfl nofun
  have hstray : strayAssignments assigningName = [("NET_TCP", "n")] := by decide +kernel
  rw [hstray] at hreads
  exact hreads

end ReactorDeploy
