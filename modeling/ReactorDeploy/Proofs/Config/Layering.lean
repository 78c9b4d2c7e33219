import ReactorDeploy.Proofs.Config.Composition
import Mathlib.Data.List.DropRight

/-!
# Nothing is lost between layers

A layer is a block of lines, from its first one to its last one that is not empty. A configuration
file is the blocks of its layers in their order, with an empty line between any two of them and a
line feed at its end (`lines_compose_blocks`). So it says what its layers say, in their order, and
nothing else (`compose_keeps_layers`).
-/

namespace ReactorDeploy

namespace Config

open Text (lines)

/-- The lines of a text that are not empty. -/
def filledLines (text : String) : List String :=
  (lines text).filter (· ≠ "")

/-- Whether a text ends with a line feed, and with no more than one. -/
def EndsWithOneLineFeed (text : String) : Prop :=
  ∃ start c, text.toList = start ++ [c, '\n'] ∧ c ≠ '\n'

/-- Empty lines behind a line that is not empty are dropped, and nothing else is. -/
theorem rdropWhile_append_replicate {ls : List String} (h : ls.getLast? ≠ some "") (n : Nat) :
    (ls ++ List.replicate n "").rdropWhile (· = "") = ls := by
  induction n with
  | zero =>
    rw [List.replicate_zero, List.append_nil, List.rdropWhile_eq_self_iff]
    intro hne hempty
    rw [List.getLast?_eq_some_getLast hne] at h
    exact h (congrArg some (of_decide_eq_true hempty))
  | succ n ih =>
    rw [List.replicate_succ', ← List.append_assoc, List.rdropWhile_concat_pos _ _ _ (by simp), ih]

namespace Fragment

/-- Whether anything but line feeds is written of a fragment. -/
def Contributes (f : Fragment) : Prop :=
  ∃ c ∈ f.render.toList, c ≠ '\n'

instance : DecidablePred Contributes := fun f =>
  inferInstanceAs (Decidable (∃ c ∈ f.render.toList, c ≠ '\n'))

/-- The lines of a fragment without the empty ones at its end. -/
def block (f : Fragment) : List String :=
  (lines f.render).rdropWhile (· = "")

/-- The text of a fragment without the line feeds at its end. -/
def stripped (f : Fragment) : String :=
  Text.stripEnd (· == '\n') f.render

/-! ## One layer -/

theorem contributes_iff {f : Fragment} : f.Contributes ↔ f.stripped ≠ "" := by
  simp [Contributes, stripped, Text.stripEnd_eq_empty_iff]

theorem contribution?_eq (f : Fragment) :
    contribution? f = if f.Contributes then some f.stripped else none := by
  simp only [contributes_iff, ite_not, ← String.isEmpty_iff]
  rfl

/-- What a layer contributes ends with something else than a line feed. -/
theorem Contributes.getLast?_stripped {f : Fragment} (h : f.Contributes) :
    ∃ c, f.stripped.toList.getLast? = some c ∧ c ≠ '\n' := by
  have hstops : Text.Stops (· == '\n') f.stripped.toList.reverse := by
    rw [stripped, Text.stripEnd, String.toList_ofList]
    exact Text.stops_reverse_dropTail _ _
  have hne : f.stripped.toList ≠ [] := by simpa using contributes_iff.1 h
  have hlast := List.getLast?_eq_some_getLast hne
  refine ⟨_, hlast, ?_⟩
  simpa using hstops _ (List.head?_reverse.trans hlast)

/-- What a layer contributes is written on the lines of its block. -/
theorem Contributes.lines_stripped {f : Fragment} (h : f.Contributes) :
    lines f.stripped = f.block := by
  obtain ⟨c, hlast, hc⟩ := h.getLast?_stripped
  obtain ⟨n, hn⟩ := Text.exists_lines_stripEnd f.render
  rw [block, hn]
  exact (rdropWhile_append_replicate (Text.getLast?_lines_ne_empty hlast hc) n).symm

end Fragment

/-! ## All layers -/

/-- The layers of a file that contribute to it, in their order. -/
def contributingLayers (order : LayerOrder) (generated : Fragment) (board : Option Fragment) :
    List Fragment :=
  (composedLayers order generated board).filter fun f => f.Contributes

theorem filterMap_contribution?_eq (layers : List Fragment) :
    layers.filterMap contribution? =
      (layers.filter fun f => f.Contributes).map Fragment.stripped := by
  induction layers with
  | nil => rfl
  | cons f layers ih =>
    rw [List.filterMap_cons, ih, Fragment.contribution?_eq]
    by_cases hf : f.Contributes <;> simp [hf]

theorem compose_eq (order : LayerOrder) (generated : Fragment) (board : Option Fragment) :
    compose order generated board =
      if contributingLayers order generated board = [] then ""
      else "\n\n".intercalate ((contributingLayers order generated board).map Fragment.stripped) ++
        "\n" := by
  have hcompose : compose order generated board =
      if ((composedLayers order generated board).filterMap contribution?).isEmpty then ""
      else "\n\n".intercalate ((composedLayers order generated board).filterMap contribution?) ++
        "\n" := by
    rw [← filterMap_contribution?]
    rfl
  rw [hcompose, filterMap_contribution?_eq]
  simp only [List.isEmpty_iff, List.map_eq_nil_iff]
  rfl

/-- A file is the blocks of the layers that contribute, with an empty line between any two of
them. The last line is what stands behind the line feed at the end. -/
theorem lines_compose_blocks (order : LayerOrder) (generated : Fragment)
    (board : Option Fragment) :
    lines (compose order generated board) =
      [""].intercalate ((contributingLayers order generated board).map Fragment.block) ++ [""] := by
  have hblocks : ((contributingLayers order generated board).map Fragment.stripped).map lines =
      (contributingLayers order generated board).map Fragment.block := by
    rw [List.map_map]
    refine List.map_congr_left fun f hf => ?_
    have hcontributes : f.Contributes := by simpa using (List.mem_filter.1 hf).2
    rw [Function.comp_apply, hcontributes.lines_stripped]
  rw [compose_eq]
  split
  · next hnil => simp [hnil]
  · next hne =>
    rw [Text.lines_append_lineFeed, Text.lines_intercalate (by simpa using hne), hblocks]

/-- A file is empty if no layer contributes to it. -/
theorem compose_eq_empty_iff (order : LayerOrder) (generated : Fragment)
    (board : Option Fragment) :
    compose order generated board = "" ↔ contributingLayers order generated board = [] := by
  rw [compose_eq]
  split
  · next hnil => simp [hnil]
  · next hne => simp [hne]

/-- What is joined from texts ends as the last of them does. -/
theorem getLast?_intercalate {texts : List String} {s : String} {c : Char}
    (hs : texts.getLast? = some s) (hc : s.toList.getLast? = some c) :
    ("\n\n".intercalate texts).toList.getLast? = some c := by
  obtain ⟨init, rfl⟩ := List.getLast?_eq_some_iff.1 hs
  by_cases hinit : init = []
  · simpa [hinit] using hc
  · rw [String.intercalate_append_of_ne_nil hinit (by simp), String.toList_append,
      List.getLast?_append, String.intercalate_singleton, hc, Option.some_or]

/-- A file that is not empty ends with one line feed. -/
theorem endsWithOneLineFeed_compose {order : LayerOrder} {generated : Fragment}
    {board : Option Fragment} (h : contributingLayers order generated board ≠ []) :
    EndsWithOneLineFeed (compose order generated board) := by
  obtain ⟨init, f, hlayers⟩ := (List.eq_nil_or_concat' _).resolve_left h
  have hf : f ∈ contributingLayers order generated board := by simp [hlayers]
  have hcontributes : f.Contributes := by simpa using (List.mem_filter.1 hf).2
  obtain ⟨c, hlast, hc⟩ := hcontributes.getLast?_stripped
  have htexts : ((contributingLayers order generated board).map Fragment.stripped).getLast? =
      some f.stripped := by
    simp [hlayers]
  have htext := getLast?_intercalate htexts hlast
  obtain ⟨start, hstart⟩ := List.getLast?_eq_some_iff.1 htext
  refine ⟨start, c, ?_, hc⟩
  rw [compose_eq, if_neg h, String.toList_append, hstart]
  simp

/-- A file says what its layers say: its lines that are not empty are those of its layers, in their
order; an empty line stands between any two layers that contribute to it; it is empty just if
nothing but line feeds is written of its layers; and otherwise it ends with one line feed. -/
theorem compose_keeps_layers (order : LayerOrder) (generated : Fragment)
    (board : Option Fragment) :
    filledLines (compose order generated board) =
        (composedLayers order generated board).flatMap (fun f => filledLines f.render) ∧
      lines (compose order generated board) =
        [""].intercalate ((contributingLayers order generated board).map Fragment.block) ++ [""] ∧
      (compose order generated board = "" ↔
        ∀ f ∈ composedLayers order generated board, ∀ c ∈ f.render.toList, c = '\n') ∧
      (compose order generated board ≠ "" →
        EndsWithOneLineFeed (compose order generated board)) := by
  refine ⟨?_, lines_compose_blocks order generated board, ?_, fun hne => ?_⟩
  · have hread : (Option.guard fun line : String => decide (line ≠ "")) "" = none := rfl
    have hlayers := filterMap_lines_compose hread order generated board
    simp only [List.filterMap_eq_filter] at hlayers
    exact hlayers
  · rw [compose_eq_empty_iff, contributingLayers, List.filter_eq_nil_iff]
    refine forall₂_congr fun f _ => ?_
    rw [decide_eq_true_iff]
    simp [Fragment.Contributes]
  · exact endsWithOneLineFeed_compose fun hnil => hne ((compose_eq_empty_iff ..).2 hnil)

end Config

end ReactorDeploy
