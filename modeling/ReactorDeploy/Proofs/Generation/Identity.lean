import ReactorDeploy.Proofs.CMake.Settings
import ReactorDeploy.Proofs.Generation.Assignments
import ReactorDeploy.Proofs.Generation.Conflict
import ReactorDeploy.Proofs.Generation.Descriptor

/-!
# What a unit says about itself

A unit that is built natively writes down who it is in four files: the source of its entry point,
the make script, the descriptor and the configuration. Each file is read as a text, line by line, for
what it says of the unit (`EntryPoint.Says`, `MakeScript.Says`, `CMake.Says`, `Config.Says`), and the
question is whether they all say the same (`PlannedUnit.PartsAgree`).

They do just if the names of the main reactor, the target and the federate stand for themselves
wherever they are written, and neither the board nor the directory of the unit sets a variable of the
descriptor on a line of its own (`native_parts_agree_iff`). Names with a quotation mark are written
as they are in the source alone, which then says something else (`quote_divides_parts`).
-/

namespace ReactorDeploy

open CMake (isUnquoted straySettings)
open Config (readAssignments)
open Config.Fragment (valuesOf valuesOf_append)
open Text (behind behind_append said)

/-! ## Sources and scripts -/

/-- What the source of an entry point says: the sizes of the queues, each once, and the federate as a
literal if there is one. -/
def EntryPoint.Says (text : String) (sizes : QueueSizes) (federate : Option String) : Prop :=
  said "#define LF_EVENT_QUEUE_SIZE " text = [toString sizes.events.toNat] ∧
  said "#define LF_REACTION_QUEUE_SIZE " text = [toString sizes.reactions.toNat] ∧
  (said "#define LF_FEDERATE_NAME " text).map Text.literal? = federate.toList.map some

/-- What a make script says: the sizes of the queues, the main reactor and its target, each once, and
the federate if there is one. -/
def MakeScript.Says (text : String) (sizes : QueueSizes) (main target : String)
    (federate : Option String) : Prop :=
  said "EVENT_QUEUE_SIZE = " text = [toString sizes.events.toNat] ∧
  said "REACTION_QUEUE_SIZE = " text = [toString sizes.reactions.toNat] ∧
  said "LF_MAIN ?= " text = [main] ∧
  said "LF_MAIN_TARGET ?= " text = [target] ∧
  said "FEDERATE = " text = federate.toList

/-- How the lines start by which an entry point says something about its unit. -/
def EntryPoint.starts : List String :=
  ["#define LF_EVENT_QUEUE_SIZE ", "#define LF_REACTION_QUEUE_SIZE ", "#define LF_FEDERATE_NAME "]

/-- What depends on the style of an entry point says nothing about the unit. -/
theorem EntryPoint.behind_style (style : EntryStyle) :
    ∀ start ∈ starts, behind start (includes style) = [] ∧ behind start (body style) = [] := by
  cases style <;> simp [starts, behind, Text.behind?, List.isPrefixOf?, includes, body]

/-- It has no line feeds either. -/
theorem EntryPoint.lineFeed_notMem_style (style : EntryStyle) :
    (∀ line ∈ includes style, '\n' ∉ line.toList) ∧ ∀ line ∈ body style, '\n' ∉ line.toList := by
  cases style <;> simp [includes, body, lineFeed_notMem_toDigits]

/-- The lines that the entry point of a unit is written from say the sizes of the queues once, and
the federate if there is one. No line feed is in them unless there is one in a name. -/
theorem EntryPoint.exists_written (e : EntryPoint) :
    ∃ written, e.render = linesText written ∧
      ((∀ name ∈ e.mainName :: e.federate.toList, '\n' ∉ name.toList) →
        ∀ line ∈ written, '\n' ∉ line.toList) ∧
      behind "#define LF_EVENT_QUEUE_SIZE " written = [toString e.sizing.events.toNat] ∧
      behind "#define LF_REACTION_QUEUE_SIZE " written = [toString e.sizing.reactions.toNat] ∧
      behind "#define LF_FEDERATE_NAME " written =
        e.federate.toList.map fun f => "\"" ++ (f ++ "\"") := by
  obtain ⟨style, mainName, sizing, federate⟩ := e
  refine ⟨_, rfl, fun hnames => ?_, ?_⟩
  · obtain ⟨hincludes, hbody⟩ := lineFeed_notMem_style style
    generalize includes style = included at hincludes ⊢
    generalize body style = functions at hbody ⊢
    cases federate <;> simp at hnames <;>
      simpa [or_imp, forall_and, hnames, lineFeed_notMem_toDigits] using ⟨hincludes, hbody⟩
  · have hstyle := behind_style style
    simp only [starts, List.forall_mem_cons] at hstyle
    simp only [behind_append, hstyle]
    generalize toString sizing.events.toNat = events
    generalize toString sizing.reactions.toNat = reactions
    cases federate <;> simp [behind, Text.behind?, List.isPrefixOf?, String.append_assoc]

/-- With names that have no line feed, the source says the sizes, and the federate within quotes as it
is. -/
theorem EntryPoint.said_render {e : EntryPoint}
    (hnames : ∀ name ∈ e.mainName :: e.federate.toList, '\n' ∉ name.toList) :
    said "#define LF_EVENT_QUEUE_SIZE " e.render = [toString e.sizing.events.toNat] ∧
    said "#define LF_REACTION_QUEUE_SIZE " e.render = [toString e.sizing.reactions.toNat] ∧
    said "#define LF_FEDERATE_NAME " e.render =
      e.federate.toList.map fun f => "\"" ++ (f ++ "\"") := by
  obtain ⟨written, hrender, hlines, hevents, hreactions, hfederate⟩ := e.exists_written
  have hsaid : ∀ start, start ≠ "" → said start e.render = behind start written :=
    fun start hstart => by rw [hrender, Text.said_linesText hstart (hlines hnames)]
  exact ⟨(hsaid _ (by decide)).trans hevents, (hsaid _ (by decide)).trans hreactions,
    (hsaid _ (by decide)).trans hfederate⟩

/-- With names that stand for themselves, the source says what the entry point is for. -/
theorem EntryPoint.says_render {e : EntryPoint} (hmain : '\n' ∉ e.mainName.toList)
    (hfederate : ∀ f ∈ e.federate.toList, isUnquoted f = true) :
    Says e.render e.sizing e.federate := by
  have hnames : ∀ name ∈ e.mainName :: e.federate.toList, '\n' ∉ name.toList :=
    List.forall_mem_cons.2
      ⟨hmain, fun f hf => CMake.lineFeed_notMem_of_isUnquoted (hfederate f hf)⟩
  obtain ⟨hevents, hreactions, hsaid⟩ := said_render hnames
  refine ⟨hevents, hreactions, ?_⟩
  rw [hsaid, List.map_map]
  refine List.map_congr_left fun f hf => ?_
  rw [Function.comp_apply, ← String.append_assoc, CMake.literal?_of_isUnquoted (hfederate f hf)]

/-- The lines that a make script is written from say the sizes of the queues, the main reactor and
its target once, and the federate if there is one. No line feed is in them unless there is one in a
name. -/
theorem MakeScript.exists_written (m : MakeScript) :
    ∃ written, m.render = linesText written ∧
      ((∀ name ∈ m.mainName :: m.mainTarget :: m.mainSource :: m.federate.toList,
          '\n' ∉ name.toList) →
        ∀ line ∈ written, '\n' ∉ line.toList) ∧
      behind "EVENT_QUEUE_SIZE = " written = [toString m.sizing.events.toNat] ∧
      behind "REACTION_QUEUE_SIZE = " written = [toString m.sizing.reactions.toNat] ∧
      behind "LF_MAIN ?= " written = [m.mainName] ∧
      behind "LF_MAIN_TARGET ?= " written = [m.mainTarget] ∧
      behind "FEDERATE = " written = m.federate.toList := by
  obtain ⟨mainName, mainTarget, platform, sizing, federate, mainSource⟩ := m
  refine ⟨_, rfl, fun hnames => ?_, ?_⟩
  · have hplatform : '\n' ∉ platform.buildName.toList := by
      cases platform <;> decide
    cases federate <;> simp at hnames <;> simp [hnames, hplatform, lineFeed_notMem_toDigits]
  · generalize toString sizing.events.toNat = events
    generalize toString sizing.reactions.toNat = reactions
    cases federate <;> simp [behind, Text.behind?, List.isPrefixOf?]

/-- A make script says what it is for just if no name has a line feed. -/
theorem MakeScript.says_render_iff {m : MakeScript} (hsource : '\n' ∉ m.mainSource.toList) :
    Says m.render m.sizing m.mainName m.mainTarget m.federate ↔
      ∀ name ∈ m.mainName :: m.mainTarget :: m.federate.toList, '\n' ∉ name.toList := by
  constructor
  · rintro ⟨-, -, hmain, htarget, hfederate⟩
    -- What is read off a line has no line feed.
    have hread : ∀ {start names}, said start m.render = names → ∀ name ∈ names, '\n' ∉ name.toList :=
      fun hnames name hname => Text.lineFeed_notMem_of_mem_said (hnames ▸ hname)
    exact List.forall_mem_cons.2 ⟨hread hmain _ (.head _),
      List.forall_mem_cons.2 ⟨hread htarget _ (.head _), hread hfederate⟩⟩
  · intro hnames
    obtain ⟨written, hrender, hlines, hevents, hreactions, hmain, htarget, hfederate⟩ :=
      m.exists_written
    simp only [List.forall_mem_cons] at hlines hnames
    have hfeeds := hlines ⟨hnames.1, hnames.2.1, hsource, hnames.2.2⟩
    have hsaid : ∀ start, start ≠ "" → said start m.render = behind start written :=
      fun start hstart => by rw [hrender, Text.said_linesText hstart hfeeds]
    exact ⟨(hsaid _ (by decide)).trans hevents, (hsaid _ (by decide)).trans hreactions,
      (hsaid _ (by decide)).trans hmain, (hsaid _ (by decide)).trans htarget,
      (hsaid _ (by decide)).trans hfederate⟩

/-! ## The configuration -/

/-- What the text of a configuration says: the sizes of the queues, each once, and the federate as a
literal if there is one. -/
def Config.Says (text : String) (sizes : QueueSizes) (federate : Option String) : Prop :=
  assignedTo "LF_EVENT_QUEUE_SIZE" text = [toString sizes.events.toNat] ∧
  assignedTo "LF_REACTION_QUEUE_SIZE" text = [toString sizes.reactions.toNat] ∧
  (assignedTo "LF_FEDERATE" text).map Text.literal? = federate.toList.map some

/-- The keys by which it says that. -/
def Config.identityKeys : List String :=
  ["LF_EVENT_QUEUE_SIZE", "LF_REACTION_QUEUE_SIZE", "LF_FEDERATE"]

/-- A plain fragment assigns the written values of its properties. -/
theorem Config.Fragment.assignedTo_render {f : Config.Fragment}
    (h : ∀ line ∈ f, line.isPlain = true) (key : String) :
    assignedTo key f.render = (valuesOf f key).map Value.render := by
  rw [assignedTo, readAssignments_render h, assignments, List.filterMap_filterMap, valuesOf,
    List.map_filterMap]
  refine List.filterMap_congr fun line _ => ?_
  cases line with
  | property k value => by_cases hkey : k = key <;> simp [hkey]
  | comment | blank | heading => rfl

/-- What a generated text assigns, to a value that ends with no blank, is assigned with the user's
file below as well. -/
theorem Config.LaidOver.mem_readAssignments {file generated text key value : String}
    {overlay : Option String} (h : LaidOver file generated overlay text) {c : Char}
    (hmem : (key, value) ∈ readAssignments generated) (hlast : value.toList.getLast? = some c)
    (hc : Text.isBlank c = false) : (key, value) ∈ readAssignments text := by
  cases h with
  | unchanged => exact hmem
  | @below body blanks overlay hgenerated hblanks =>
    rw [Text.allBlank, List.all_eq_true] at hblanks
    obtain ⟨line, hline, hassignment⟩ := List.mem_filterMap.1 hmem
    have hend : line.toList.getLast? = some c := by
      rw [eq_of_assignment? hassignment, String.toList_append, List.getLast?_append, hlast]
      rfl
    rw [hgenerated, ← String.ofList_toList (s := blanks)] at hline
    have hbody : (key, value) ∈ readAssignments body :=
      List.mem_filterMap.2 ⟨line, Text.mem_lines_of_append_blanks hblanks hline hend hc, hassignment⟩
    have hnotice : "\n\n# ---- User-provided " = "\n" ++ "\n# ---- User-provided " := rfl
    have happend : ∀ rest, readAssignments (body ++ ("\n" ++ rest)) =
        readAssignments body ++ readAssignments rest := fun rest => by
      rw [← String.append_assoc, readAssignments_append]
    rw [hnotice]
    simp only [String.append_assoc, happend]
    exact List.mem_append_left _ hbody

/-- The configuration of a native unit has the sizes of the queues as they are, once. -/
theorem valuesOf_sizes (u : Deployment) :
    valuesOf u.systemConfig "LF_EVENT_QUEUE_SIZE" = [.raw (toString u.sizing.events.toNat)] ∧
    valuesOf u.systemConfig "LF_REACTION_QUEUE_SIZE" =
      [.raw (toString u.sizing.reactions.toNat)] := by
  have hnetwork : valuesOf u.networkConfig "LF_EVENT_QUEUE_SIZE" = [] ∧
      valuesOf u.networkConfig "LF_REACTION_QUEUE_SIZE" = [] := by
    unfold Deployment.networkConfig
    cases u.network <;> exact ⟨rfl, rfl⟩
  have hplatform : ∀ key ∈ ["LF_EVENT_QUEUE_SIZE", "LF_REACTION_QUEUE_SIZE"],
      valuesOf (Deployment.platformConfig u.platform) key = [] :=
    fun key hkey => valuesOf_platformConfig _ (by revert key; decide)
  simp only [List.forall_mem_cons] at hplatform
  simp only [Deployment.systemConfig, valuesOf_append, hnetwork, hplatform]
  exact ⟨rfl, rfl⟩

/-- It names the federate once if the unit has a network, and otherwise none. -/
theorem valuesOf_federate (u : Deployment) :
    valuesOf u.systemConfig "LF_FEDERATE" =
      if u.network = .isolated then [] else [.str (u.federateName?.getD "")] := by
  rw [Deployment.systemConfig, valuesOf_append, valuesOf_append,
    valuesOf_platformConfig _ (by decide), Deployment.networkConfig]
  cases u.network <;> rfl

/-- The project name of a unit has a line feed only if the main reactor has one or the federate. -/
theorem Role.lineFeed_notMem_projectName (role : Role) {mainName : String}
    (hmain : '\n' ∉ mainName.toList)
    (hfederate : ∀ name ∈ role.federate?.map Federate.name, '\n' ∉ name.toList) :
    '\n' ∉ (role.projectName mainName).toList := by
  cases role with
  | standalone => exact hmain
  | federate f =>
    have hname : '\n' ∉ f.name.toList := hfederate f.name rfl
    simp [projectName, hmain, hname]

/-- With names that have no line feed, the generated layer of a native unit is plain. -/
theorem Deployment.isPlain_systemConfig {u : Deployment} (hproject : '\n' ∉ u.projectName.toList)
    (hfederate : ∀ name ∈ u.federateName?, '\n' ∉ name.toList) :
    ∀ line ∈ u.systemConfig, line.isPlain = true := by
  obtain ⟨rest, hrest, hplain⟩ := u.exists_systemConfig_eq
  rw [hrest, List.forall_mem_cons]
  refine ⟨?_, hplain hfederate⟩
  rw [Config.Line.isPlain, Config.all_ne_lineFeed_iff]
  simpa using hproject

/-- Then the written layer says what the unit is, if the unit has a network just where it is a
federate. -/
theorem Deployment.says_systemConfig {u : Deployment} (hproject : '\n' ∉ u.projectName.toList)
    (hfederate : ∀ name ∈ u.federateName?, '\n' ∉ name.toList)
    (hnetwork : u.network = .isolated ↔ u.federateName? = none) :
    Config.Says u.systemConfig.render u.sizing u.federateName? := by
  have hread := Config.Fragment.assignedTo_render (isPlain_systemConfig hproject hfederate)
  obtain ⟨hevents, hreactions⟩ := valuesOf_sizes u
  refine ⟨by rw [hread, hevents]; rfl, by rw [hread, hreactions]; rfl, ?_⟩
  rw [hread, valuesOf_federate]
  cases hname : u.federateName? with
  | none => rw [if_pos (hnetwork.2 hname)]; rfl
  | some name =>
    rw [if_neg fun hisolated => by rw [hnetwork.1 hisolated] at hname; cases hname]
    exact congrArg (fun found => [found]) (Text.literal?_quoted name)

/-- The values by which it does end with no blank. -/
theorem Deployment.getLast?_of_mem_assignedTo {u : Deployment}
    (hproject : '\n' ∉ u.projectName.toList) (hfederate : ∀ name ∈ u.federateName?, '\n' ∉ name.toList)
    {key : String} (hkey : key ∈ Config.identityKeys) {value : String}
    (hvalue : value ∈ Config.assignedTo key (Config.Fragment.render u.systemConfig)) :
    ∃ c, value.toList.getLast? = some c ∧ Text.isBlank c = false := by
  have hread := Config.Fragment.assignedTo_render (isPlain_systemConfig hproject hfederate)
  have hnumber : ∀ n : Nat, ∃ c, (toString n).toList.getLast? = some c ∧ Text.isBlank c = false :=
    fun n => by simpa using exists_getLast?_toDigits n
  obtain ⟨hevents, hreactions⟩ := valuesOf_sizes u
  simp only [Config.identityKeys, List.mem_cons, List.not_mem_nil, or_false] at hkey
  rcases hkey with rfl | rfl | rfl
  · rw [hread, hevents] at hvalue
    rw [List.mem_singleton.1 hvalue]
    exact hnumber _
  · rw [hread, hreactions] at hvalue
    rw [List.mem_singleton.1 hvalue]
    exact hnumber _
  · rw [hread, valuesOf_federate] at hvalue
    split at hvalue
    · cases hvalue
    · rw [List.mem_singleton.1 hvalue]
      refine ⟨'"', List.getLast?_eq_some_iff.2 ⟨'"' :: (u.federateName?.getD "").toList.flatMap
        Text.escapeChar, ?_⟩, rfl⟩
      simp [Config.Value.render, Text.quoted]

/-! ## Descriptors -/

/-- Of the texts that a native descriptor starts with, only the board may set a variable. -/
theorem NativeBuild.settings_firstCommands_eq_nil_iff (b : NativeBuild) (u : Deployment)
    {name : String} (hname : name ∈ CMake.identityNames) :
    CMake.settings name (b.firstCommands u).render = [] ↔
      ∀ board ∈ u.selectedBoard?.toList, straySettings name board = [] := by
  have hstarts : ∀ name ∈ CMake.identityNames,
      ∀ start ∈ ["set(" ++ "PLATFORM" ++ " ", "set(" ++ "BOARD" ++ " ",
        "set(" ++ "IDF_TARGET" ++ " ", "include" ++ "("], CMake.StartsOtherwise name start := by
    decide
  have hothers := hstarts name hname
  simp only [List.forall_mem_cons] at hothers
  obtain ⟨hplatform, hboard, hidf, hinclude, -⟩ := hothers
  have hplatformLine : CMake.settings name ((CMake.Document.setCache "PLATFORM"
      u.platform.buildName "Platform to target").renderAt 0) = [] := by
    rw [CMake.settings_setCache_eq_nil_iff hname hplatform (by decide),
      CMake.straySettings_of_notMem]
    cases u.platform <;> decide
  have hincludeLine : CMake.settings name ((CMake.Line.command "include"
      [CMake.env "IDF_PATH" ++ "/tools/cmake/project.cmake"]).renderAt 0) = [] :=
    CMake.settings_command hinclude (by decide)
  rw [CMake.Document.render, CMake.settings_renderLines, firstCommands, List.flatMap_cons,
    hplatformLine, List.nil_append]
  cases b.tooling with
  | cmake =>
    cases u.selectedBoard? with
    | none => simp
    | some board =>
      have hline : CMake.settings name ((CMake.Document.setCache "BOARD" board
          "Board to target").renderAt 0) = [] ↔ straySettings name board = [] :=
        CMake.settings_setCache_eq_nil_iff hname hboard (by decide)
      simpa using hline
  | espIdf =>
    cases u.selectedBoard? with
    | none => simpa using hincludeLine
    | some board =>
      have hline : CMake.settings name ((CMake.Document.set "IDF_TARGET" board).renderAt 0) = [] ↔
          straySettings name board = [] := CMake.settings_set_other_eq_nil_iff hname hidf
      simpa [hincludeLine] using hline

/-- With names that have no line feed, a native descriptor says what the unit is just if the names
stand for themselves, and neither the board nor the directory of the unit sets such a variable. -/
theorem NativeBuild.says_descriptor_iff (b : NativeBuild) {u : Deployment}
    (hnames : ∀ name ∈ u.mainName :: b.mainTarget u :: u.federateName?.toList, '\n' ∉ name.toList)
    (hproject : '\n' ∉ u.projectName.toList) :
    CMake.Says (b.descriptor u).render u.mainName (b.mainTarget u) u.federateName? ↔
      (∀ name ∈ u.mainName :: b.mainTarget u :: u.federateName?.toList, isUnquoted name = true) ∧
      ∀ text ∈ u.selectedBoard?.toList ++ [u.projectRoot], ∀ name ∈ CMake.identityNames,
        straySettings name text = [] := by
  rw [descriptor, CMake.says_descriptor_iff]
  · refine and_congr_right fun _ => ?_
    simp only [List.forall_mem_append, List.forall_mem_singleton]
    constructor
    · exact fun h => ⟨fun board hboard name hname =>
        (settings_firstCommands_eq_nil_iff b u hname).1 (h name hname).1 board hboard,
        fun name hname => (h name hname).2⟩
    · exact fun h name hname => ⟨(settings_firstCommands_eq_nil_iff b u hname).2
        fun board hboard => h.1 board hboard name hname, h.2 name hname⟩
  · simp only [List.forall_mem_cons] at hnames ⊢
    refine ⟨hproject, hnames.1, hnames.2.1, ?_, hnames.2.2⟩
    -- The builder that the descriptor names is one of two fixed texts.
    cases b.tooling <;> decide

/-! ## Units -/

namespace PlannedUnit

/-- A unit has a text at a path. -/
def HasText (p : PlannedUnit) (s : Setup) (r : Request) (path text : String) : Prop :=
  (p.artifacts s r).get? path = some { path, content := text }

/-- The parts of a unit that is built natively say the same of it: the sizes of its queues, its main
reactor, its target, and the federate that it is, if it is one. The configuration is composed of one
generated layer, which says so, and what that layer says stands in the file if the layer does. -/
structure PartsAgree (p : PlannedUnit) (s : Setup) (r : Request) (sizes : QueueSizes)
    (target : String) (federate : Option String) : Prop where
  source : ∃ text, p.HasText s r "lf_main.c" text ∧ EntryPoint.Says text sizes federate
  makeScript : ∃ text, p.HasText s r "make/lf.mk" text ∧
    MakeScript.Says text sizes r.manifest.mainName target federate
  descriptor : ∃ text, p.HasText s r "CMakeLists.txt" text ∧
    CMake.Says text r.manifest.mainName target federate
  config : ∃ file layer text, (p.toolchain s r).layout = .combined file ∧ p.layers s r = [layer] ∧
    p.HasText s r file text ∧ Config.Says layer.render sizes federate ∧
    (.generated ∈ s.order → ∀ key ∈ Config.identityKeys,
      Config.assignedTo key layer.render ⊆ Config.assignedTo key text)

section
variable {p : PlannedUnit} {s : Setup} {r : Request} {tooling : NativeTooling} {file : String}

theorem HasText.unique {path text other : String} (h : p.HasText s r path text)
    (hother : p.HasText s r path other) : text = other := by
  rw [HasText, hother] at h
  cases h
  rfl

theorem hasText_source_of_native (h : (p.toolchain s r).BuildsNatively tooling file) :
    p.HasText s r "lf_main.c" ((p.deployment s r).entryPoint (p.toolchain s r).entry).render := by
  have hmem : p.entryArtifact s r ∈ p.generated s r := by
    rw [generated_of_native h]
    exact .head _
  exact get?_artifacts hmem

theorem hasText_makeScript_of_native (h : (p.toolchain s r).BuildsNatively tooling file) :
    p.HasText s r "make/lf.mk"
      ((NativeBuild.ofTooling tooling).makeScript (p.deployment s r)).render := by
  have hmem : { path := MakeScript.path
                content := ((NativeBuild.ofTooling tooling).makeScript
                  (p.deployment s r)).render : Artifact } ∈ p.generated s r := by
    rw [generated_of_native h]
    exact .tail _ (.tail _ (.head _))
  exact get?_artifacts hmem

theorem hasText_descriptor_of_native (h : (p.toolchain s r).BuildsNatively tooling file) :
    p.HasText s r "CMakeLists.txt"
      ((NativeBuild.ofTooling tooling).descriptor (p.deployment s r)).render :=
  get?_artifacts (mem_generated_of_descriptors (descriptors_of_native h))

/-- The configuration says what the unit is, in the layer that it is composed of and in the file, if
no name has a line feed, and the network of the unit is that of its role. -/
theorem config_of_native (h : (p.toolchain s r).BuildsNatively tooling file)
    (hnetwork : p.role = .standalone ∧ p.network = .isolated ∨
      ∃ f, p.role = .federate f ∧ p.network ≠ .isolated)
    (hproject : '\n' ∉ (p.deployment s r).projectName.toList)
    (hfederate : ∀ name ∈ (p.deployment s r).federateName?, '\n' ∉ name.toList) :
    ∃ file layer text, (p.toolchain s r).layout = .combined file ∧ p.layers s r = [layer] ∧
      p.HasText s r file text ∧
      Config.Says layer.render (r.manifest.sizingOf p.role) (p.deployment s r).federateName? ∧
      (.generated ∈ s.order → ∀ key ∈ Config.identityKeys,
        Config.assignedTo key layer.render ⊆ Config.assignedTo key text) := by
  have hlayers : p.layers s r = [(p.deployment s r).systemConfig] := by
    rw [layers, h.generators]
    rfl
  have hisolated : (p.deployment s r).network = .isolated ↔
      (p.deployment s r).federateName? = none := by
    show p.network = .isolated ↔ p.role.federate?.map Federate.name = none
    rcases hnetwork with ⟨hrole, hisolated⟩ | ⟨f, hrole, hconnected⟩
    · exact iff_of_true hisolated (by rw [hrole]; rfl)
    · exact iff_of_false hconnected (by rw [hrole]; nofun)
  refine ⟨file, _, _, h.layout, hlayers, get?_config_of_native h,
    Deployment.says_systemConfig hproject hfederate hisolated, fun horder key hkey value hvalue => ?_⟩
  obtain ⟨c, hlast, hc⟩ :=
    Deployment.getLast?_of_mem_assignedTo hproject hfederate hkey hvalue
  rw [Config.mem_assignedTo_iff] at hvalue ⊢
  refine (Config.laidOver_mergeOverlay _ _ _).mem_readAssignments ?_ hlast hc
  rw [Deployment.composedConfig, Config.readAssignments_compose]
  exact List.mem_flatMap.2 ⟨_, List.mem_filterMap.2 ⟨.generated, horder, rfl⟩, hvalue⟩

/-- The parts of a native unit agree just if the names stand for themselves, and neither the board nor
the directory of the unit sets a variable of the descriptor. -/
theorem partsAgree_iff_of_native (h : (p.toolchain s r).BuildsNatively tooling file)
    (hnetwork : p.role = .standalone ∧ p.network = .isolated ∨
      ∃ f, p.role = .federate f ∧ p.network ≠ .isolated) :
    p.PartsAgree s r (r.manifest.sizingOf p.role)
        ((NativeBuild.ofTooling tooling).mainTarget (p.deployment s r))
        (p.role.federate?.map Federate.name) ↔
      (∀ name ∈ r.manifest.mainName ::
        (NativeBuild.ofTooling tooling).mainTarget (p.deployment s r) ::
          (p.role.federate?.map Federate.name).toList, isUnquoted name = true) ∧
      ∀ text ∈ (p.deployment s r).selectedBoard?.toList ++ [(p.deployment s r).projectRoot],
        ∀ name ∈ CMake.identityNames, straySettings name text = [] := by
  generalize hbuild : NativeBuild.ofTooling tooling = build
  have hmake : p.HasText s r "make/lf.mk" (build.makeScript (p.deployment s r)).render :=
    hbuild ▸ hasText_makeScript_of_native h
  have hdescriptor : p.HasText s r "CMakeLists.txt" (build.descriptor (p.deployment s r)).render :=
    hbuild ▸ hasText_descriptor_of_native h
  have hmakeSays := MakeScript.says_render_iff (m := build.makeScript (p.deployment s r))
    (show '\n' ∉ EntryPoint.path.toList by decide)
  have hproject : (∀ name ∈ r.manifest.mainName :: build.mainTarget (p.deployment s r) ::
      (p.role.federate?.map Federate.name).toList, '\n' ∉ name.toList) →
        '\n' ∉ (p.deployment s r).projectName.toList := fun hnames =>
    p.role.lineFeed_notMem_projectName (hnames _ (.head _)) fun f hf =>
      hnames _ (.tail _ (.tail _ (Option.mem_toList.2 hf)))
  constructor
  · intro hagree
    obtain ⟨text, htext, hsays⟩ := hagree.makeScript
    obtain rfl := htext.unique hmake
    have hnames := hmakeSays.1 hsays
    obtain ⟨text, htext, hsays⟩ := hagree.descriptor
    obtain rfl := htext.unique hdescriptor
    exact (build.says_descriptor_iff hnames (hproject hnames)).1 hsays
  · rintro ⟨hunquoted, hstray⟩
    have hnames : ∀ name ∈ r.manifest.mainName :: build.mainTarget (p.deployment s r) ::
        (p.role.federate?.map Federate.name).toList, '\n' ∉ name.toList := fun name hname =>
      CMake.lineFeed_notMem_of_isUnquoted (hunquoted name hname)
    have hfederate : ∀ f ∈ (p.role.federate?.map Federate.name).toList, isUnquoted f = true :=
      fun f hf => hunquoted f (.tail _ (.tail _ hf))
    exact
      { source := ⟨_, hasText_source_of_native h,
          EntryPoint.says_render (hnames _ (.head _)) hfederate⟩
        makeScript := ⟨_, hmake, hmakeSays.2 hnames⟩
        descriptor := ⟨_, hdescriptor,
          (build.says_descriptor_iff hnames (hproject hnames)).2 ⟨hunquoted, hstray⟩⟩
        config := config_of_native h hnetwork (hproject hnames) fun f hf =>
          hnames f (.tail _ (.tail _ (Option.mem_toList.2 hf))) }

end

end PlannedUnit

/-- The sizes for a unit are those of its federate, or else those of the project. -/
theorem Manifest.sizingOf_eq (m : Manifest) (role : Role) :
    m.sizingOf role = (role.federate?.bind Federate.sizing).getD m.sizing := by
  cases role <;> rfl

/-- **When the parts of a native unit agree.** In every pass that succeeds, whatever the manifest, the
workspace and the output root, take a unit that is built natively, with plain CMake or with ESP-IDF.
Its source, its make script, its descriptor and its configuration, each read line by line, say the
same: the sizes that its federate has, or else those of the project; the main reactor and the target;
and the federate that the unit is, which no part has if it is the whole of an application. They do so
just if each of these names stands for itself as an argument of a command, and no line behind the
first one of the board or the directory of the unit sets one of the variables for them. -/
theorem native_parts_agree_iff {s : Setup} {n : Numbering} {r : Request} {out : GenerationOutput}
    (h : (generate s n r).1 = .ok out) :
    ∃ ps, r.manifest.Planned n ps ∧ out.units = ps.map (fun p => p.report s r) ∧
      ∀ p ∈ ps, ∀ build, (p.toolchain s r).native = some build →
        let target := build.mainTarget (p.deployment s r)
        let federate := p.role.federate?.map Federate.name
        p.PartsAgree s r ((p.role.federate?.bind Federate.sizing).getD r.manifest.sizing) target
            federate ↔
          (∀ name ∈ r.manifest.mainName :: target :: federate.toList, isUnquoted name = true) ∧
          ∀ text ∈ (p.deployment s r).selectedBoard?.toList ++ [(p.deployment s r).projectRoot],
            ∀ name ∈ ["LF_MAIN", "LF_MAIN_TARGET", "FEDERATE"], straySettings name text = [] := by
  obtain ⟨ps, hplanned, rfl⟩ := exists_planned h
  refine ⟨ps, hplanned, GenerationOutput.units_ofUnits _ _ _ _, fun p hp build hbuild => ?_⟩
  rw [← Manifest.sizingOf_eq]
  rcases p.toolchain_cases s r with ⟨tooling, file, hnative⟩ | hzephyr
  · obtain rfl : NativeBuild.ofTooling tooling = build :=
      Option.some.inj (hnative.native.symm.trans hbuild)
    exact PlannedUnit.partsAgree_iff_of_native hnative (hplanned.network_cases hp)
  · rw [hzephyr.native] at hbuild
    cases hbuild

/-- The parts of both units of a federation on the host name their federate, those of an application
by itself none. -/
theorem host_parts_agree :
    (∃ out, (generate {} .perPass (pairRequest "App")).1 = .ok out ∧
      ∃ p q : PlannedUnit, out.units = [p, q].map (fun u => u.report {} (pairRequest "App")) ∧
        p.PartsAgree {} (pairRequest "App") {} "App_bin" (some "bin") ∧
        q.PartsAgree {} (pairRequest "App") {} "App_b" (some "b")) ∧
    ∃ out, (generate {} .perPass (namedRequest "App")).1 = .ok out ∧
      ∃ p : PlannedUnit, out.units = [p.report {} (namedRequest "App")] ∧
        p.PartsAgree {} (namedRequest "App") {} "App" none := by
  constructor
  · have hout := generate_pair "App"
    obtain ⟨ps, hplanned, hunits, hagree⟩ := native_parts_agree_iff hout
    obtain rfl := eq_pairUnits hplanned
    exact ⟨_, hout, _, _, hunits, (hagree _ (.head _) _ rfl).2 (by decide +kernel),
      (hagree _ (.tail _ (.head _)) _ rfl).2 (by decide +kernel)⟩
  · have hout := fst_generate_named {} .perPass "App"
    obtain ⟨ps, hplanned, hunits, hagree⟩ := native_parts_agree_iff hout
    obtain rfl := hplanned.eq_of_standalone rfl
    exact ⟨_, hout, _, hunits, (hagree _ (.head _) _ rfl).2 (by decide +kernel)⟩

/-! ## A name with a quotation mark -/

/-- A request to generate a federation of one on one host. -/
def soleRequest (federate : String) : Request where
  manifest := { name := "App", federates := [{ name := federate, ordinal := some 0 }] }
  workspace := Workspace.empty
  outputRoot := "out"

/-- The unit of the federation. -/
def soleUnit (federate : String) : PlannedUnit :=
  .ofFederate "App" { name := federate, ordinal := some 0 } .loopback

theorem generate_sole (federate : String) :
    (generate {} .perPass (soleRequest federate)).1 =
      .ok (.ofUnits {} (soleRequest federate) [soleUnit federate]
        (soleRequest federate).manifest.script?) := by
  have hordered : (soleRequest federate).manifest.orderedFederates =
      (soleRequest federate).manifest.federates :=
    Manifest.orderedFederates_eq_self (List.pairwise_singleton _ _)
  rw [fst_generate_of_allocator rfl rfl, Manifest.federationUnits_of_not_isConstrained rfl, hordered]
  rfl

/-- **A quotation mark divides the parts.** The name of a federate may have a quotation mark. It is
accepted, and the source of its unit has it within quotes as it is, which is no literal, while the
configuration has it escaped: whatever the unit is taken to be, its parts do not say the same. -/
theorem quote_divides_parts :
    let r := soleRequest "a\"b"
    let p := soleUnit "a\"b"
    Manifest.parse "project.name = \"App\"\n\n[[federates]]\nname = 'a\"b'\n" = .ok r.manifest ∧
      r.manifest.check = .ok [] ∧
      ∃ out text layer, (generate {} .perPass r).1 = .ok out ∧ out.units = [p.report {} r] ∧
        p.HasText {} r "lf_main.c" text ∧
        said "#define LF_FEDERATE_NAME " text = ["\"a\"b\""] ∧ Text.literal? "\"a\"b\"" = none ∧
        p.layers {} r = [layer] ∧
        (Config.assignedTo "LF_FEDERATE" layer.render).map Text.literal? = [some "a\"b"] ∧
        ∀ sizes target federate, ¬ p.PartsAgree {} r sizes target federate := by
  intro r p
  have hparse : Manifest.parse "project.name = \"App\"\n\n[[federates]]\nname = 'a\"b'\n" =
      .ok r.manifest := by
    decide +kernel
  have hcheck : r.manifest.check = .ok [] := by
    have hproblems : r.manifest.problems = [] := by decide +kernel
    refine Manifest.check_eq_ok_iff.2 ⟨hproblems.symm, ?_⟩
    rw [hproblems]
    exact nofun
  have hnative : (p.toolchain {} r).BuildsNatively .cmake "lf.conf" := ⟨rfl, rfl, rfl, rfl⟩
  have hsource := PlannedUnit.hasText_source_of_native hnative
  obtain ⟨-, -, hsaid⟩ := EntryPoint.said_render
    (e := (p.deployment {} r).entryPoint (p.toolchain {} r).entry) (by decide)
  have hliteral : Text.literal? "\"a\"b\"" = none := by decide
  obtain ⟨-, -, hlayer⟩ : Config.Says (p.deployment {} r).systemConfig.render {} (some "a\"b") :=
    Deployment.says_systemConfig (by decide) (by decide) (by decide)
  refine ⟨hparse, hcheck, _, _, _, generate_sole _, rfl, hsource, hsaid, hliteral, rfl, hlayer, ?_⟩
  intro sizes target federate hagree
  obtain ⟨text, htext, -, -, hfederate⟩ := hagree.source
  obtain rfl := htext.unique hsource
  rw [hsaid] at hfederate
  have hnone : [Text.literal? "\"a\"b\""] = federate.toList.map some := hfederate
  rw [hliteral] at hnone
  cases federate <;> cases hnone

end ReactorDeploy
