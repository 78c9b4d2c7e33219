import ReactorDeploy.Proofs.CMake.Arguments
import ReactorDeploy.Proofs.Config.Composition
import ReactorDeploy.Proofs.Generation.Outcome
import ReactorDeploy.Proofs.Manifest.RoundTrip

/-!
# The board of a unit on Zephyr

Both the descriptor of a unit and its configuration depend on a board. The descriptor defaults to
the board that somebody chose for the unit, and to the fallback board if nobody did
(`Zephyr.defaultBoard_eq`). The configuration also goes by a board that the options have without
anybody's choice (`Deployment.selectedBoard?_eq`), and by none if they have none. So the
configuration is composed for the board that the descriptor defaults to if somebody chose that, and
else just if the options come to the same text as the fallback board
(`composed_for_default_board_iff`). They always do for a manifest that is read from a text, as long
as the table has nothing for the fallback board (`PlannedUnit.composedForDefaultBoard_of_parse`).
-/

namespace ReactorDeploy

open CMake (settingsOf)
open CMake.Document (set ifThen)
open Config (contribution? compose compose_eq_compose_iff)

/-! ## Choices -/

namespace Deployment

/-- The board that somebody chose for a unit: that of the federate, or else the one that the user
set for the target. -/
def chosenBoard? (u : Deployment) : Option String :=
  u.federateBoard?.or (if u.options.board.userSet then u.options.boardName? else none)

/-- The board of the target if nobody chose it. -/
def computedBoard? (u : Deployment) : Option String :=
  if u.options.board.userSet then none else u.options.boardName?

/-- A board is selected without anybody's choice only if nobody chose another. -/
theorem selectedBoard?_eq (u : Deployment) :
    u.selectedBoard? = u.chosenBoard?.or u.computedBoard? := by
  unfold selectedBoard? chosenBoard? computedBoard?
  cases u.federateBoard? <;> cases u.options.board.userSet <;> simp

end Deployment

/-- A descriptor defaults to the board that somebody chose, or else to the fallback board. -/
theorem Zephyr.defaultBoard_eq (u : Deployment) :
    defaultBoard u = u.chosenBoard?.getD fallbackBoard := by
  unfold defaultBoard Deployment.chosenBoard? Deployment.selectedBoard?
  cases u.federateBoard? <;> cases u.options.board.userSet <;> cases u.options.boardName? <;> rfl

/-! ## The descriptor -/

/-- A document sets a variable in one place, where it is not defined. -/
structure CMake.Document.DefaultsTo (doc : CMake.Document) (name value : String) : Prop where
  mem : ifThen ("NOT DEFINED " ++ name) [set name value] ∈ doc
  settingsOf_eq : settingsOf doc name = [[value]]

/-- A variable has one default. -/
theorem CMake.Document.DefaultsTo.eq {doc : CMake.Document} {name value other : String}
    (h : doc.DefaultsTo name value) (hother : doc.DefaultsTo name other) : value = other := by
  have hsettings := h.settingsOf_eq.symm.trans hother.settingsOf_eq
  exact List.singleton_inj.1 (List.singleton_inj.1 hsettings)

/-- A variable that is no part of the identity of a unit is set by what the descriptor starts with
only. -/
theorem CMake.settingsOf_descriptor_eq_first {first : CMake.Document} {identity : CMake.Identity}
    {options : CMake.BuildOptions} {name : String}
    (h : name ∉ ["LF_MAIN", "LF_MAIN_TARGET", "PROJECT_ROOT", "KCONFIG_ROOT", "LOG_LEVEL",
      "FEDERATE"]) :
    settingsOf (descriptor first identity options) name = settingsOf first name := by
  have hidentity : (identitySettings identity options).filterMap (fun args =>
      if args.head? = some name then some args.tail else none) = [] := by
    refine List.filterMap_eq_nil_iff.2 fun args hargs => if_neg fun hname => ?_
    have hhead : ∀ args ∈ identitySettings identity options, ∀ name ∈ args.head?, name ∈
        ["LF_MAIN", "LF_MAIN_TARGET", "PROJECT_ROOT", "KCONFIG_ROOT", "LOG_LEVEL", "FEDERATE"] := by
      unfold identitySettings
      cases options.hasKconfigRoot <;> cases identity.federate <;> simp
    exact h (hhead args hargs name hname)
  rw [settingsOf, argumentsOf_set_descriptor, List.filterMap_append, hidentity, List.append_nil]
  rfl

/-- The descriptor of a unit on Zephyr has a default for the board, in quotes. -/
theorem Zephyr.defaultsTo_descriptor (u : Deployment) :
    (descriptor u).DefaultsTo "BOARD" (CMake.quoted (defaultBoard u)) where
  mem := by
    unfold descriptor CMake.descriptor firstCommands
    simp
  settingsOf_eq := by
    have hfirst : settingsOf (firstCommands u) "BOARD" = [[CMake.quoted (defaultBoard u)]] := by
      unfold firstCommands
      cases u.layout.userOverride? <;>
        simp [CMake.Document.setCache, CMake.Document.set, settingsOf, appendHint, hintsVariable]
    exact (CMake.settingsOf_descriptor_eq_first (by decide)).trans hfirst

/-! ## The configuration -/

namespace PlannedUnit

/-- The configuration of a unit on Zephyr, composed for a board. -/
def configFor (p : PlannedUnit) (s : Setup) (r : Request) (board : Option String) : Artifact where
  path := "prj_lf.conf"
  content := compose s.order (Zephyr.generatedConfig (p.deployment s r)) (s.boards.configFor? board)

/-- The configuration of a unit is the one that is composed for the board that the descriptor of the
unit defaults to. -/
def ComposedForDefaultBoard (p : PlannedUnit) (s : Setup) (r : Request) : Prop :=
  ∃ doc board, p.descriptors s r = [doc] ∧ doc.DefaultsTo "BOARD" (CMake.quoted board) ∧
    (p.artifacts s r).get? "prj_lf.conf" = some (p.configFor s r (some board))

section
variable {p : PlannedUnit} {s : Setup} {r : Request}

/-- The configurations for two boards are the same just if no layer is for the board, or the boards
contribute the same text. -/
theorem configFor_inj {board other : Option String} :
    p.configFor s r board = p.configFor s r other ↔ .board ∉ s.order ∨
      (s.boards.configFor? board).bind contribution? =
        (s.boards.configFor? other).bind contribution? := by
  simp only [configFor, Artifact.mk.injEq, true_and, and_true]
  exact compose_eq_compose_iff

/-- The configuration of a unit on Zephyr is composed for the board that somebody chose, or else for
the one that the options have. -/
theorem get?_config_eq_configFor (h : (p.toolchain s r).BuildsOnZephyr) :
    (p.artifacts s r).get? "prj_lf.conf" = some (p.configFor s r
      ((p.deployment s r).chosenBoard?.or (p.deployment s r).computedBoard?)) := by
  rw [← Deployment.selectedBoard?_eq]
  exact get?_config_of_zephyr h

/-- A unit on Zephyr has one descriptor, which defaults to the board that somebody chose, or else to
the fallback board. -/
theorem exists_descriptor_defaultsTo (h : (p.toolchain s r).BuildsOnZephyr) :
    ∃ doc, p.descriptors s r = [doc] ∧
      (p.artifacts s r).get? "CMakeLists.txt" =
        some { path := "CMakeLists.txt", content := doc.render } ∧
      doc.DefaultsTo "BOARD" (CMake.quoted
        ((p.deployment s r).chosenBoard?.getD Zephyr.fallbackBoard)) := by
  have hdoc := descriptors_of_zephyr h
  refine ⟨_, hdoc, get?_artifacts (mem_generated_of_descriptors hdoc), ?_⟩
  rw [← Zephyr.defaultBoard_eq]
  exact Zephyr.defaultsTo_descriptor _

/-- The configuration of a unit on Zephyr is composed for the board of its descriptor if somebody
chose that, and else just if it is the same as for the fallback board. -/
theorem composedForDefaultBoard_iff (h : (p.toolchain s r).BuildsOnZephyr) :
    p.ComposedForDefaultBoard s r ↔
      (p.deployment s r).chosenBoard?.isSome = true ∨ .board ∉ s.order ∨
        (s.boards.configFor? (p.deployment s r).computedBoard?).bind contribution? =
          (s.boards.configFor? (some Zephyr.fallbackBoard)).bind contribution? := by
  obtain ⟨doc, hdoc, -, hdefault⟩ := exists_descriptor_defaultsTo h
  have hconfig := get?_config_eq_configFor h
  have hsame : p.ComposedForDefaultBoard s r ↔
      p.configFor s r ((p.deployment s r).chosenBoard?.or (p.deployment s r).computedBoard?) =
        p.configFor s r (some ((p.deployment s r).chosenBoard?.getD Zephyr.fallbackBoard)) := by
    constructor
    · rintro ⟨other, board, hother, hboard, hget⟩
      obtain rfl : doc = other := List.singleton_inj.1 (hdoc.symm.trans hother)
      rw [Text.quotedByReplacement_injective (hdefault.eq hboard)]
      exact Option.some.inj (hconfig.symm.trans hget)
    · exact fun heq => ⟨doc, _, hdoc, hdefault, hconfig.trans (congrArg some heq)⟩
  rw [hsame]
  cases (p.deployment s r).chosenBoard? with
  | some board => exact iff_of_true rfl (.inl rfl)
  | none => exact configFor_inj.trans (or_iff_right Bool.false_ne_true).symm

end

end PlannedUnit

/-! ## Boards from the start and from a text -/

/-- The names of the boards that there are from the start are written as they are compared. -/
theorem Board.builtin_eq : builtin = [⟨picoBoards, picoFragment⟩] := by
  decide +kernel

/-- The table from the start has nothing for the fallback board. -/
theorem Board.configFor?_fallbackBoard : builtin.configFor? (some Zephyr.fallbackBoard) = none := by
  rw [builtin_eq]
  decide +kernel

/-- The boards around the RP2040 and RP2350 contribute something. -/
theorem Board.contribution?_picoFragment : contribution? picoFragment ≠ none := by
  have hmem : 'P' ∈ (Config.Fragment.render picoFragment).toList := by
    simp [picoFragment, Config.Fragment.render_cons, Config.Line.render]
  exact Config.contribution?_ne_none hmem (by decide)

/-- A manifest that is read from a text has no board that nobody chose. -/
theorem PlannedUnit.computedBoard?_of_parse {text : String} {s : Setup} {r : Request}
    (h : Manifest.parse text = .ok r.manifest) (p : PlannedUnit) :
    (p.deployment s r).computedBoard? = none := by
  have hboard : r.manifest.target.board.boardOrDefault = r.manifest.target.board :=
    congrArg (fun m => m.target.board) (Manifest.readBack_of_parse h)
  show (if r.manifest.target.board.userSet then none
    else r.manifest.target.board.value.bind Text.nonBlank?) = none
  generalize r.manifest.target.board = board at hboard ⊢
  obtain ⟨value, userSet⟩ := board
  cases userSet with
  | true => rfl
  | false =>
    cases value with
    | none => rfl
    | some name => cases hboard

/-- For a manifest that is read from a text, and a table without anything for the fallback board,
the configuration of every unit on Zephyr is composed for the board of its descriptor. -/
theorem PlannedUnit.composedForDefaultBoard_of_parse {text : String} {s : Setup} {r : Request}
    (hparse : Manifest.parse text = .ok r.manifest)
    (hboards : s.boards.configFor? (some Zephyr.fallbackBoard) = none) {p : PlannedUnit}
    (h : (p.toolchain s r).BuildsOnZephyr) : p.ComposedForDefaultBoard s r := by
  refine (composedForDefaultBoard_iff h).2 (.inr (.inr ?_))
  rw [computedBoard?_of_parse hparse, hboards]
  rfl

/-- **Whose board a unit on Zephyr is configured for.** Whatever the boards, the order of layers,
the options and the federates: the descriptor of a unit on Zephyr defaults to the board that
somebody chose for the unit, and to the fallback board if nobody did. The configuration is composed
for the board that somebody chose, and else for the one that the options have without anybody's
choice, or for none. So it is composed for the board that the descriptor defaults to if somebody
chose that. Otherwise it is so just if no layer is for the board, or the options and the fallback
board come to the same text. -/
theorem composed_for_default_board_iff {s : Setup} {n : Numbering} {r : Request}
    {out : GenerationOutput} (h : (generate s n r).1 = .ok out) :
    ∃ ps, r.manifest.Planned n ps ∧ out.units = ps.map (fun p => p.report s r) ∧ ∀ p ∈ ps,
      (p.toolchain s r).BuildsOnZephyr →
        (∃ doc, p.descriptors s r = [doc] ∧
          (p.artifacts s r).get? "CMakeLists.txt" =
            some { path := "CMakeLists.txt", content := doc.render } ∧
          doc.DefaultsTo "BOARD" (CMake.quoted
            ((p.deployment s r).chosenBoard?.getD Zephyr.fallbackBoard))) ∧
        (p.artifacts s r).get? "prj_lf.conf" = some (p.configFor s r
          ((p.deployment s r).chosenBoard?.or (p.deployment s r).computedBoard?)) ∧
        (p.ComposedForDefaultBoard s r ↔
          (p.deployment s r).chosenBoard?.isSome = true ∨ .board ∉ s.order ∨
            (s.boards.configFor? (p.deployment s r).computedBoard?).bind contribution? =
              (s.boards.configFor? (some Zephyr.fallbackBoard)).bind contribution?) := by
  obtain ⟨ps, hplanned, rfl⟩ := exists_planned h
  exact ⟨ps, hplanned, GenerationOutput.units_ofUnits _ _ _ _, fun p _ hp =>
    ⟨PlannedUnit.exists_descriptor_defaultsTo hp, PlannedUnit.get?_config_eq_configFor hp,
      PlannedUnit.composedForDefaultBoard_iff hp⟩⟩

/-- A request to generate a standalone application for Zephyr in an empty workspace. -/
def boardRequest (board : Tracked (Option String)) : Request where
  manifest := { name := "App", target := { platform := .user .zephyr, board } }
  workspace := Workspace.empty
  outputRoot := "out"

/-- The unit of such a request. -/
def boardUnit (board : Tracked (Option String)) : PlannedUnit :=
  (boardRequest board).manifest.standaloneUnit

theorem boardUnit_buildsOnZephyr (boards : Board.Table) (board : Tracked (Option String)) :
    ((boardUnit board).toolchain { boards } (boardRequest board)).BuildsOnZephyr :=
  ⟨rfl, rfl, rfl, rfl⟩

/-- The descriptor of an application defaults to the board that the user set for it, and its
configuration is composed for that board. -/
theorem user_board_is_default :
    let r := boardRequest (.user (some " RPI_Pico "))
    ∃ out, (generate {} .perPass r).1 = .ok out ∧ ∃ p : PlannedUnit, out.units = [p.report {} r] ∧
      p.ComposedForDefaultBoard {} r ∧
      (p.artifacts {} r).get? "prj_lf.conf" = some (p.configFor {} r (some "RPI_Pico")) ∧
      ∃ doc, p.descriptors {} r = [doc] ∧ doc.DefaultsTo "BOARD" (CMake.quoted "RPI_Pico") := by
  intro r
  have hout : (generate {} .perPass r).1 = .ok (.ofUnits {} r [r.manifest.standaloneUnit] none) :=
    fst_generate_of_standalone rfl
  obtain ⟨ps, hplanned, hunits, hzephyr⟩ := composed_for_default_board_iff hout
  obtain rfl := hplanned.eq_of_standalone rfl
  have hchosen : (r.manifest.standaloneUnit.deployment {} r).chosenBoard? = some "RPI_Pico" := by
    decide +kernel
  have hbuilds := boardUnit_buildsOnZephyr Board.builtin (.user (some " RPI_Pico "))
  obtain ⟨⟨doc, hdoc, -, hdefault⟩, hconfig, hcomposed⟩ := hzephyr _ (.head _) hbuilds
  rw [hchosen] at hdefault hconfig hcomposed
  exact ⟨_, hout, _, hunits, hcomposed.2 (.inl rfl), hconfig, doc, hdoc, hdefault⟩

/-- The boards that there are from the start, and the one that descriptors default to. -/
def extendedBoards : Board.Table :=
  Board.builtin.withEntry [Zephyr.fallbackBoard] Board.picoFragment

/-- If nobody chose the board, the configuration is composed for that of the descriptor just if it
is the same as for the fallback board. -/
theorem boardUnit_composed_iff {boards : Board.Table} {board : Option String} :
    (boardUnit (.computed board)).ComposedForDefaultBoard { boards }
        (boardRequest (.computed board)) ↔
      (boards.configFor? (board.bind Text.nonBlank?)).bind contribution? =
        (boards.configFor? (some Zephyr.fallbackBoard)).bind contribution? := by
  have hbuilds := boardUnit_buildsOnZephyr boards (.computed board)
  exact (PlannedUnit.composedForDefaultBoard_iff hbuilds).trans
    ((or_iff_right Bool.false_ne_true).trans (or_iff_right (not_not.2 (.tail _ (.head _)))))

/-- **The descriptor may default to another board.** An application whose options have a board that
nobody chose is configured for it, although its descriptor defaults to the fallback board, for which
the table has nothing. If a table has something for the fallback board, an application without any
board is configured without it. -/
theorem computed_board_is_not_default :
    let pico := boardRequest (.computed (some "rpi_pico"))
    let boardless := boardRequest (.computed none)
    let extended : Setup := { boards := extendedBoards }
    (∃ out, (generate {} .perPass pico).1 = .ok out ∧ ∃ p : PlannedUnit,
      out.units = [p.report {} pico] ∧ (p.toolchain {} pico).BuildsOnZephyr ∧
      (p.artifacts {} pico).get? "prj_lf.conf" = some (p.configFor {} pico (some "rpi_pico")) ∧
      (∃ doc, p.descriptors {} pico = [doc] ∧
        doc.DefaultsTo "BOARD" (CMake.quoted "nrf52840dk_nrf52840")) ∧
      ¬ p.ComposedForDefaultBoard {} pico) ∧
    ∃ out, (generate extended .perPass boardless).1 = .ok out ∧ ∃ p : PlannedUnit,
      out.units = [p.report extended boardless] ∧
      (p.toolchain extended boardless).BuildsOnZephyr ∧
      (p.artifacts extended boardless).get? "prj_lf.conf" =
        some (p.configFor extended boardless none) ∧
      (∃ doc, p.descriptors extended boardless = [doc] ∧
        doc.DefaultsTo "BOARD" (CMake.quoted "nrf52840dk_nrf52840")) ∧
      ¬ p.ComposedForDefaultBoard extended boardless := by
  intro pico boardless extended
  have hpico := boardUnit_buildsOnZephyr Board.builtin (.computed (some "rpi_pico"))
  have hnone := boardUnit_buildsOnZephyr extendedBoards (.computed none)
  obtain ⟨picoDoc, hpicoDoc, -, hpicoDefault⟩ := PlannedUnit.exists_descriptor_defaultsTo hpico
  obtain ⟨noneDoc, hnoneDoc, -, hnoneDefault⟩ := PlannedUnit.exists_descriptor_defaultsTo hnone
  have hpicoConfig : Board.builtin.configFor? (some "rpi_pico") = some Board.picoFragment := by
    rw [Board.builtin_eq]
    decide +kernel
  have hfallbackConfig : extendedBoards.configFor? (some Zephyr.fallbackBoard) =
      some Board.picoFragment := by
    rw [extendedBoards, Board.builtin_eq]
    decide +kernel
  have hpicoName : (some "rpi_pico").bind Text.nonBlank? = some "rpi_pico" := by decide
  constructor
  · refine ⟨_, fst_generate_of_standalone rfl, _, rfl, hpico,
      PlannedUnit.get?_config_eq_configFor hpico, ⟨picoDoc, hpicoDoc, hpicoDefault⟩,
      boardUnit_composed_iff.not.2 ?_⟩
    rw [hpicoName, hpicoConfig, Board.configFor?_fallbackBoard, Option.bind_some, Option.bind_none]
    exact Board.contribution?_picoFragment
  · refine ⟨_, fst_generate_of_standalone rfl, _, rfl, hnone,
      PlannedUnit.get?_config_eq_configFor hnone, ⟨noneDoc, hnoneDoc, hnoneDefault⟩,
      boardUnit_composed_iff.not.2 ?_⟩
    rw [hfallbackConfig, Option.bind_some]
    exact Ne.symm Board.contribution?_picoFragment

end ReactorDeploy
