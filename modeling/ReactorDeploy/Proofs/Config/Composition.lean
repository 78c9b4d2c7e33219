import ReactorDeploy.Config.Layers
import ReactorDeploy.Proofs.Text.Lines
import ReactorDeploy.Proofs.Text.Scan
import Mathlib.Data.List.Basic

/-!
# The lines of a configuration file

A configuration file has the lines of its layers in order, with an empty line between two layers
and one at the end (`lines_compose`).

The lines of a layer may follow a template, in which some lines are open (`Template`). So do those
of a file with such a generated layer (`lines_compose_of_fill`), and its template has the open lines
of the layer as often as the layer is in the order (`count_none_composed`).

A file tells what the board contributes to it, wherever its layer is in the order and however often
(`compose_eq_compose_iff`).
-/

namespace ReactorDeploy

namespace Config

open Text (lines)

/-! ## Written fragments -/

/-- A line of a fragment is written with a line feed at its end. -/
theorem Line.exists_render (line : Line) : ∃ text, line.render = text ++ "\n" := by
  cases line with
  | blank => exact ⟨"", rfl⟩
  | comment text => exact ⟨"# " ++ text, rfl⟩
  | property key value => exact ⟨"CONFIG_" ++ key ++ "=" ++ value.render, rfl⟩
  | heading text =>
    refine ⟨"\n# " ++ text ++ " #\n# " ++ String.ofList (List.replicate text.length '-') ++ " #\n",
      ?_⟩
    simp only [render, String.append_assoc]
    rfl

namespace Fragment

theorem render_append (f g : Fragment) : render (f ++ g) = render f ++ render g := by
  rw [render, List.map_append, String.join_append]
  rfl

theorem render_cons (line : Line) (f : Fragment) :
    render (line :: f) = line.render ++ render f :=
  String.join_cons

/-- A fragment with lines is written with a line feed at its end. -/
theorem exists_render {f : Fragment} (h : f ≠ []) : ∃ text, render f = text ++ "\n" := by
  obtain ⟨init, line, rfl⟩ := (List.eq_nil_or_concat' f).resolve_left h
  obtain ⟨text, htext⟩ := line.exists_render
  refine ⟨render init ++ text, ?_⟩
  rw [render_append, render_cons, htext]
  show render init ++ (text ++ "\n" ++ "") = _
  rw [String.append_empty, String.append_assoc]

/-- Something of a fragment that starts with a property is left without the line feeds at its
end. -/
theorem stripEnd_render_property_ne_empty (key : String) (value : Value) (f : Fragment) :
    Text.stripEnd (· == '\n') (render (.property key value :: f)) ≠ "" := by
  have hc : 'C' ∈ (render (.property key value :: f)).toList := by
    simp [render_cons, Line.render]
  rw [Ne, Text.stripEnd_eq_empty_iff]
  exact fun hall => absurd (hall 'C' hc) (by decide)

end Fragment

/-- A fragment contributes something if anything but line feeds is written of it. -/
theorem contribution?_ne_none {f : Fragment} {c : Char} (hmem : c ∈ f.render.toList)
    (hc : c ≠ '\n') : contribution? f ≠ none := by
  have htext : Text.stripEnd (· == '\n') f.render ≠ "" := by
    rw [Ne, Text.stripEnd_eq_empty_iff]
    exact fun hall => hc (eq_of_beq (hall c hmem))
  unfold contribution?
  rw [if_neg (by rwa [String.isEmpty_iff])]
  exact Option.some_ne_none _

/-! ## Composed layers -/

/-- A file has the lines of the texts of its layers, and between two layers and at the end an empty
line. -/
theorem lines_compose (order : LayerOrder) (generated : Fragment) (board : Option Fragment) :
    lines (compose order generated board) =
      ((order.filterMap fun
        | .generated => contribution? generated
        | .board => board.bind contribution?).flatMap fun text => "" :: lines text).tail ++
          [""] := by
  unfold compose
  generalize order.filterMap _ = texts
  cases texts with
  | nil => rfl
  | cons text texts =>
    show lines ("\n\n".intercalate (text :: texts) ++ "\n") = _
    rw [Text.lines_append_lineFeed, Text.lines_intercalate_cons]
    rfl

/-- The layers that a file is composed of, in order. -/
def composedLayers (order : LayerOrder) (generated : Fragment) (board : Option Fragment) :
    List Fragment :=
  order.filterMap fun
    | .generated => some generated
    | .board => board

/-- What the layers of a file contribute to it. -/
theorem filterMap_contribution? (order : LayerOrder) (generated : Fragment)
    (board : Option Fragment) :
    (order.filterMap fun
        | .generated => contribution? generated
        | .board => board.bind contribution?) =
      (composedLayers order generated board).filterMap contribution? := by
  rw [composedLayers, List.filterMap_filterMap]
  refine List.filterMap_congr fun layer _ => ?_
  cases layer <;> rfl

section
variable {α : Type} {read : String → Option α}

/-- What a layer contributes is read like the layer. -/
theorem filterMap_lines_contribution? (hread : read "" = none) (f : Fragment) :
    ((contribution? f).toList.flatMap fun text => (lines text).filterMap read) =
      (lines f.render).filterMap read := by
  rw [← Text.filterMap_lines_stripEnd hread]
  unfold contribution?
  generalize Text.stripEnd (· == '\n') f.render = text
  dsimp only
  split
  · next hempty =>
    rw [String.isEmpty_iff.1 hempty]
    simp [hread]
  · simp

/-- What is read of a file line by line is read of its layers, one after the other, if nothing is
read of an empty line. -/
theorem filterMap_lines_compose (hread : read "" = none) (order : LayerOrder)
    (generated : Fragment) (board : Option Fragment) :
    (lines (compose order generated board)).filterMap read =
      (composedLayers order generated board).flatMap fun f => (lines f.render).filterMap read := by
  -- Nothing is read of the lines that stand between the layers.
  have hgaps : ∀ texts : List String,
      ((texts.flatMap fun text => "" :: lines text).tail ++ [""]).filterMap read =
        texts.flatMap fun text => (lines text).filterMap read := by
    intro texts
    cases texts with
    | nil => simp [hread]
    | cons text texts => simp [hread, List.filterMap_append, List.filterMap_flatMap]
  rw [lines_compose, hgaps, filterMap_contribution?, List.filterMap_eq_flatMap_toList,
    List.flatMap_assoc]
  exact List.flatMap_congr fun f _ => filterMap_lines_contribution? hread f

end

/-- The lines of a text, some of which are open. -/
abbrev Template := List (Option String)

namespace Template

/-- The lines with a line in the place of every open one. -/
def fill (line : String) (t : Template) : List String :=
  t.map fun l => l.getD line

theorem fill_append (line : String) (t u : Template) :
    fill line (t ++ u) = t.fill line ++ u.fill line :=
  List.map_append

theorem fill_none_cons (line : String) (t : Template) :
    fill line (none :: t) = line :: t.fill line := rfl

/-- The template of a text, with no line open. -/
def ofText (text : String) : Template :=
  (lines text).map some

theorem fill_ofText (line text : String) : (ofText text).fill line = lines text := by
  rw [fill, ofText, List.map_map]
  exact List.map_id _

theorem count_none_ofText (text : String) : (ofText text).count none = 0 :=
  List.count_eq_zero.2 (by simp [ofText])

/-- The template of a layer, where the generated one has a template and the board adds a text. -/
def ofLayer (generated : Template) (board : Option String) : Layer → Option Template
  | .generated => some generated
  | .board => board.map ofText

/-- The template of a file: those of its layers, and between two of them and at the end an empty
line. -/
def composed (order : LayerOrder) (generated : Template) (board : Option String) : Template :=
  ((order.filterMap (ofLayer generated board)).flatMap fun t => some "" :: t).tail ++ [some ""]

/-- A file follows the template that is composed of that of its generated layer. -/
theorem lines_compose_of_fill {generated : Fragment} {text line : String} {t : Template}
    (hgenerated : contribution? generated = some text) (htext : lines text = t.fill line)
    (order : LayerOrder) (board : Option Fragment) :
    lines (compose order generated board) =
      (composed order t (board.bind contribution?)).fill line := by
  have hlayers : (order.filterMap fun
        | .generated => contribution? generated
        | .board => board.bind contribution?).map lines =
      (order.filterMap (ofLayer t (board.bind contribution?))).map (fill line) := by
    rw [List.map_filterMap, List.map_filterMap]
    refine congrArg (List.filterMap · order) (funext fun layer => ?_)
    cases layer with
    | generated =>
      show (contribution? generated).map lines = some (t.fill line)
      rw [hgenerated, ← htext]
      rfl
    | board =>
      show (board.bind contribution?).map lines =
        ((board.bind contribution?).map ofText).map (fill line)
      simp only [Option.map_map, Function.comp_def, fill_ofText]
  have hflat := congrArg (List.flatMap fun text => "" :: text) hlayers
  rw [List.flatMap_map, List.flatMap_map] at hflat
  rw [lines_compose, hflat, composed, fill_append, fill, List.map_tail, List.map_flatMap]
  rfl

/-- The layers of an order have the open lines of the generated layer as often as that layer is in
the order. -/
theorem count_none_layers (order : LayerOrder) (generated : Template) (board : Option String) :
    ((order.filterMap (ofLayer generated board)).flatMap fun t => some "" :: t).count none =
      order.count .generated * generated.count none := by
  induction order with
  | nil => simp
  | cons layer order ih =>
    cases layer with
    | generated => simp [ofLayer, ih, Nat.add_mul, Nat.add_comm]
    | board =>
      rw [List.count_cons_of_ne (by decide), ← ih, List.filterMap_cons]
      cases board <;> simp [ofLayer, count_none_ofText]

/-- No line between layers is open. -/
theorem count_none_tail (ts : List Template) :
    (ts.flatMap fun t => some "" :: t).tail.count none =
      (ts.flatMap fun t => some "" :: t).count none := by
  cases ts with
  | nil => rfl
  | cons t ts => simp

/-- The template of a file has the open lines of the generated layer as often as that layer is in
the order. -/
theorem count_none_composed (order : LayerOrder) (generated : Template) (board : Option String) :
    (composed order generated board).count none =
      order.count .generated * generated.count none := by
  rw [composed, List.count_append, count_none_tail, count_none_layers]
  rfl

end Template

/-! ## The layer of the board -/

/-- The lines of a layer's text, if it has one, with an empty line ahead. -/
def spaced (text : Option String) : List String :=
  text.toList.flatMap fun t => "" :: lines t

theorem spaced_injective : Function.Injective spaced := by
  intro a b h
  cases a with
  | none =>
    cases b with
    | none => rfl
    | some t => cases h
  | some s =>
    cases b with
    | none => cases h
    | some t =>
      simp only [spaced, Option.toList_some, List.flatMap_singleton, List.cons.injEq,
        true_and] at h
      rw [Text.lines_injective h]

/-- The layers of a file are set apart text by text. -/
theorem flatMap_spaced (order : LayerOrder) (text? : Layer → Option String) :
    (order.flatMap fun layer => spaced (text? layer)) =
      (order.filterMap text?).flatMap fun t => "" :: lines t := by
  rw [List.filterMap_eq_flatMap_toList, List.flatMap_assoc]
  rfl

/-- The text of a layer, where that of the generated one and that of the board are given. -/
def layerText? (generated board : Option String) : Layer → Option String
  | .generated => generated
  | .board => board

/-- The lines of a file, layer by layer. -/
theorem lines_compose_spaced (order : LayerOrder) (generated : Fragment) (board : Option Fragment) :
    lines (compose order generated board) =
      (order.flatMap fun layer => spaced (layerText? (contribution? generated)
        (board.bind contribution?) layer)).tail ++ [""] := by
  rw [flatMap_spaced]
  exact lines_compose order generated board

/-- The empty line ahead of the first layer is known from what is behind it. -/
theorem flatMap_spaced_eq_of_tail_eq {order : LayerOrder} {text? other? : Layer → Option String}
    (h : (order.flatMap fun layer => spaced (text? layer)).tail =
      (order.flatMap fun layer => spaced (other? layer)).tail) :
    (order.flatMap fun layer => spaced (text? layer)) =
      order.flatMap fun layer => spaced (other? layer) := by
  rw [flatMap_spaced, flatMap_spaced] at h ⊢
  generalize order.filterMap text? = us at h ⊢
  generalize order.filterMap other? = vs at h ⊢
  cases us with
  | nil =>
    cases vs with
    | nil => rfl
    | cons v vs => exact absurd (List.append_eq_nil_iff.1 h.symm).1 (Text.lines_ne_nil v)
  | cons u us =>
    cases vs with
    | nil => exact absurd (List.append_eq_nil_iff.1 h).1 (Text.lines_ne_nil u)
    | cons v vs => exact congrArg ("" :: ·) h

/-- What is put together layer by layer is as long as its layers. -/
theorem length_flatMap_layers {α : Type} (order : LayerOrder) (f : Layer → List α) :
    (order.flatMap f).length =
      order.count .generated * (f .generated).length + order.count .board * (f .board).length := by
  induction order with
  | nil => simp
  | cons layer order ih =>
    rw [List.flatMap_cons, List.length_append, ih]
    cases layer <;> simp [Nat.succ_mul] <;> omega

/-- What is put together layer by layer tells the layer of the board, if there is one. -/
theorem board_eq_of_flatMap_eq {α : Type} {order : LayerOrder} {f g : Layer → List α}
    (hboard : .board ∈ order) (hgenerated : f .generated = g .generated)
    (h : order.flatMap f = order.flatMap g) : f .board = g .board := by
  -- The layers of the board are as long in either, so that the first of them stand side by side.
  have hlength : (f .board).length = (g .board).length := by
    have hcount := congrArg List.length h
    rw [length_flatMap_layers, length_flatMap_layers, hgenerated, Nat.add_left_cancel_iff] at hcount
    exact Nat.eq_of_mul_eq_mul_left (List.count_pos_iff.2 hboard) hcount
  induction order with
  | nil => cases hboard
  | cons layer order ih =>
    rw [List.flatMap_cons, List.flatMap_cons] at h
    cases layer with
    | board => exact (List.append_inj h hlength).1
    | generated =>
      rw [hgenerated] at h
      exact ih ((List.mem_cons.1 hboard).resolve_left nofun) (List.append_cancel_left h)

/-- A file is the same for two boards just if it has no layer for them, or they contribute the same
text to it. -/
theorem compose_eq_compose_iff {order : LayerOrder} {generated : Fragment}
    {board other : Option Fragment} :
    compose order generated board = compose order generated other ↔
      .board ∉ order ∨ board.bind contribution? = other.bind contribution? := by
  rw [← Text.lines_injective.eq_iff, lines_compose_spaced, lines_compose_spaced,
    List.append_cancel_right_eq]
  constructor
  · refine fun h => or_iff_not_imp_left.2 fun hboard => spaced_injective ?_
    exact board_eq_of_flatMap_eq
      (f := fun layer => spaced (layerText? _ (board.bind contribution?) layer))
      (not_not.1 hboard) rfl (flatMap_spaced_eq_of_tail_eq h)
  · rintro (hboard | hsame)
    · refine congrArg List.tail (List.flatMap_congr fun layer hlayer => ?_)
      cases layer with
      | generated => rfl
      | board => exact absurd hlayer hboard
    · rw [hsame]

end Config

end ReactorDeploy
