import ReactorDeploy.Config.Fragment
import ReactorDeploy.Text.Blank

/-!
# Layers of a configuration file

A configuration file is composed of layers, each of them a fragment that may be absent, in an order
that can be chosen. Layers that render to nothing but line feeds leave no trace; the others are set
apart by an empty line.

A user's own file is laid over the generated text as a whole, below a notice that says where it
came from.
-/

namespace ReactorDeploy.Config

/-- A layer of a configuration file. -/
inductive Layer where
  /-- What the unit needs. -/
  | generated
  /-- What its board needs. -/
  | board
  deriving DecidableEq, Repr

/-- The order in which layers are written. -/
abbrev LayerOrder := List Layer

/-- The usual order: the board's needs come last and so prevail. -/
def defaultOrder : LayerOrder :=
  [.generated, .board]

/-- The text that a layer contributes, without the line feeds at its end. -/
def contribution? (f : Fragment) : Option String :=
  let text := Text.stripEnd (· == '\n') f.render
  if text.isEmpty then none else some text

/-- The text of a configuration file. -/
def compose (order : LayerOrder) (generated : Fragment) (board : Option Fragment) : String :=
  let texts := order.filterMap fun
    | .generated => contribution? generated
    | .board => board.bind contribution?
  if texts.isEmpty then "" else "\n\n".intercalate texts ++ "\n"

/-- The notice between generated text and the user's file of the given name. -/
def overlayNotice (label : String) : String :=
  "\n\n# ---- User-provided " ++ label ++ " overlay ----\n" ++
    "# Copied verbatim from the workspace. Edit the workspace file instead;\n" ++
    "# hand-edits to the generated section above are lost on regeneration.\n"

/-- The user's file, if there is one that is not blank. -/
def effectiveOverlay? (overlay : Option String) : Option String :=
  overlay.filter fun text => !Text.allBlank text

/-- The generated text with the user's file below it. Without one the text stays as it is. -/
def mergeOverlay (generated : String) (overlay : Option String) (label : String) : String :=
  match effectiveOverlay? overlay with
  | none => generated
  | some text =>
    Text.trimEnd generated ++ overlayNotice label ++ text ++
      (if text.toList.getLast? = some '\n' then "" else "\n")

end ReactorDeploy.Config
