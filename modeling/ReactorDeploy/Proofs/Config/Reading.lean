import ReactorDeploy.Proofs.Config.Composition
import ReactorDeploy.Proofs.Files.Path
import ReactorDeploy.Proofs.Text.Digits
import ReactorDeploy.Proofs.Text.Quoted

/-!
# Reading a configuration file

A configuration file is read line by line. A line that starts with `CONFIG_` assigns what is behind
its first equals sign to the key before it, and every other line is ignored (`readAssignments`).

Reading goes through the parts of a file: through its layers (`readAssignments_compose`), the lines
of a layer (`readAssignments_render`) and each of these lines. A line whose texts have no line feeds
is read as the property that it is (`Line.readAssignments_of_isPlain`), and so is a layer of
such lines. What a comment with line feeds adds is on the lines behind its first one
(`Line.readAssignments_comment`).
-/

namespace ReactorDeploy.Config

open Text (lines)

/-- A text split at its first equals sign, if it has one. -/
def splitEquals? (s : String) : Option (String × String) :=
  match s.toList.dropWhile (· != '=') with
  | [] => none
  | _ :: value => some (String.ofList (s.toList.takeWhile (· != '=')), String.ofList value)

/-- The assignment on a line, if it is one. -/
def assignment? (line : String) : Option (String × String) :=
  (Text.behind? "CONFIG_" line).bind splitEquals?

/-- The assignments of a text, in order. -/
def readAssignments (text : String) : List (String × String) :=
  (lines text).filterMap assignment?

/-- The assignments on the lines of a text behind its first one. -/
def strayAssignments (text : String) : List (String × String) :=
  (lines text).tail.filterMap assignment?

/-- What a text assigns to a key, in order. -/
def assignedTo (key text : String) : List String :=
  (readAssignments text).filterMap fun a => if a.1 = key then some a.2 else none

theorem mem_assignedTo_iff {key text value : String} :
    value ∈ assignedTo key text ↔ (key, value) ∈ readAssignments text := by
  rw [assignedTo, List.mem_filterMap]
  constructor
  · rintro ⟨⟨k, v⟩, hmem, heq⟩
    split at heq
    · next hkey =>
      cases heq
      exact hkey ▸ hmem
    · cases heq
  · exact fun hmem => ⟨_, hmem, if_pos rfl⟩

theorem splitEquals?_append {key : String} (h : '=' ∉ key.toList) (value : String) :
    splitEquals? (key ++ "=" ++ value) = some (key, value) := by
  have htext : (key ++ "=" ++ value).toList = key.toList ++ '=' :: value.toList := by simp
  have hkey : ∀ c ∈ key.toList, (c != '=') = true := fun c hc =>
    bne_iff_ne.2 fun heq => h (heq ▸ hc)
  have hstops : Text.Stops (· != '=') ('=' :: value.toList) := Text.stops_cons.2 rfl
  rw [splitEquals?, htext, Text.dropWhile_run hkey hstops, Text.takeWhile_run hkey hstops,
    String.ofList_toList]
  exact congrArg (fun s => some (key, s)) String.ofList_toList

/-- A property without an equals sign in its key is read as it is written. -/
theorem assignment?_property {key : String} (h : '=' ∉ key.toList) (value : String) :
    assignment? ("CONFIG_" ++ key ++ "=" ++ value) = some (key, value) := by
  rw [assignment?, String.append_assoc, String.append_assoc, Text.behind?_append, Option.bind_some,
    ← String.append_assoc, splitEquals?_append h]

/-- No comment is an assignment. -/
theorem assignment?_comment (text : String) : assignment? ("# " ++ text) = none := by
  have hstart : Text.behind? "CONFIG_" ("# " ++ text) = none := by
    simp [Text.behind?, List.isPrefixOf?]
  rw [assignment?, hstart, Option.bind_none]

@[simp] theorem assignment?_empty : assignment? "" = none := rfl

/-- An assignment is all of its line. -/
theorem eq_of_assignment? {line key value : String} (h : assignment? line = some (key, value)) :
    line = "CONFIG_" ++ key ++ "=" ++ value := by
  obtain ⟨body, hbody, hsplit⟩ := Option.bind_eq_some_iff.1 h
  rw [Text.behind?_eq_some_iff.1 hbody, String.append_assoc, String.append_assoc]
  refine congrArg ("CONFIG_" ++ ·) ?_
  have hstops : Text.Stops (· != '=') (body.toList.dropWhile (· != '=')) :=
    Text.stops_dropWhile _ _
  have hbody := List.takeWhile_append_dropWhile (p := (· != '=')) (l := body.toList)
  unfold splitEquals? at hsplit
  split at hsplit
  · cases hsplit
  · next c cs hdrop =>
    cases hsplit
    rw [hdrop] at hstops hbody
    obtain rfl : c = '=' := by simpa using Text.stops_cons.1 hstops
    simpa [← String.toList_inj] using hbody.symm

/-- What is assigned has no line feed in it. -/
theorem lineFeed_notMem_of_mem_readAssignments {text : String} {key value : String}
    (h : (key, value) ∈ readAssignments text) : '\n' ∉ value.toList := by
  obtain ⟨line, hline, hassignment⟩ := List.mem_filterMap.1 h
  obtain rfl := eq_of_assignment? hassignment
  intro hmem
  refine Text.lineFeed_notMem_of_mem_lines hline ?_
  rw [String.toList_append]
  exact List.mem_append_right _ hmem

/-! ## Parts of a text -/

theorem readAssignments_append (s t : String) :
    readAssignments (s ++ "\n" ++ t) = readAssignments s ++ readAssignments t := by
  rw [readAssignments, Text.lines_append, List.filterMap_append]
  rfl

theorem readAssignments_append_lineFeed (s : String) :
    readAssignments (s ++ "\n") = readAssignments s :=
  Text.filterMap_lines_append_lineFeed assignment?_empty s

/-! ## Lines of a fragment -/

theorem all_ne_lineFeed_iff {s : String} :
    s.toList.all (· != '\n') = true ↔ '\n' ∉ s.toList := by
  rw [List.all_eq_true]
  constructor
  · exact fun h hmem => absurd (h _ hmem) (by decide)
  · exact fun h c hc => bne_iff_ne.2 fun heq => h (heq ▸ hc)

/-- The text of a value, if it has one, has no line feeds. -/
def Value.isPlain : Value → Bool
  | .flag _ | .int _ => true
  | .str s | .raw s => s.toList.all (· != '\n')

/-- The texts of a line have no line feeds, and its key has no equals sign. -/
def Line.isPlain : Line → Bool
  | .blank => true
  | .comment text | .heading text => text.toList.all (· != '\n')
  | .property key value => key.toList.all (fun c => c != '=' && c != '\n') && value.isPlain

/-- A comment adds the assignments on the lines of its text behind the first one. -/
theorem Line.readAssignments_comment (text : String) :
    readAssignments (Line.comment text).render = strayAssignments text := by
  obtain ⟨first, rest, hlines⟩ : ∃ first rest, lines text = first :: rest :=
    List.exists_cons_of_ne_nil fun hnil => List.splitOn_ne_nil '\n' text.toList
      (List.map_eq_nil_iff.1 hnil)
  rw [render, readAssignments_append_lineFeed, readAssignments,
    Text.lines_append_of_notMem (by decide), strayAssignments, hlines]
  simp only [List.modifyHead_cons, List.filterMap_cons, assignment?_comment, List.tail_cons]

theorem strayAssignments_of_notMem {text : String} (h : '\n' ∉ text.toList) :
    strayAssignments text = [] := by
  rw [strayAssignments, Text.lines_of_notMem h]
  rfl

/-- A start without line feeds is on the first line. -/
theorem strayAssignments_append_of_notMem {start : String} (h : '\n' ∉ start.toList) (s : String) :
    strayAssignments (start ++ s) = strayAssignments s := by
  rw [strayAssignments, Text.lines_append_of_notMem h, strayAssignments, List.tail_modifyHead]

/-- A heading without line feeds is no assignment. -/
theorem Line.readAssignments_heading {text : String} (h : '\n' ∉ text.toList) :
    readAssignments (Line.heading text).render = [] := by
  generalize hdashes : String.ofList (List.replicate text.length '-') = dashes
  have hline : '\n' ∉ dashes.toList := by simp [← hdashes]
  have htext : (Line.heading text).render =
      "" ++ "\n" ++ ("# " ++ (text ++ " #") ++ "\n" ++ ("# " ++ (dashes ++ " #") ++ "\n" ++ "\n")) := by
    rw [render, hdashes]
    simp only [String.append_assoc]
    rfl
  have hcomment : ∀ text : String, '\n' ∉ text.toList →
      readAssignments ("# " ++ (text ++ " #")) = [] := by
    intro text h
    rw [readAssignments, Text.lines_of_notMem (by simpa using h), List.filterMap_cons,
      assignment?_comment]
    rfl
  rw [htext, readAssignments_append, readAssignments_append, readAssignments_append_lineFeed,
    readAssignments_append_lineFeed, hcomment text h, hcomment dashes hline]
  rfl

/-- A plain value is written on one line. -/
theorem Value.lineFeed_notMem_render {value : Value} (h : value.isPlain = true) :
    '\n' ∉ value.render.toList := by
  have hnat : ∀ n : Nat, '\n' ∉ (toString n).toList := fun n => by
    simp [lineFeed_notMem_toDigits]
  cases value with
  | flag b => cases b <;> decide
  | int n =>
    cases n with
    | ofNat n => exact hnat n
    | negSucc n =>
      show '\n' ∉ ("-" ++ toString (n + 1)).toList
      simpa using hnat (n + 1)
  | str s =>
    rw [render, Text.lineFeed_mem_quoted_iff]
    exact all_ne_lineFeed_iff.1 h
  | raw s => exact all_ne_lineFeed_iff.1 h

/-- A plain line is read as the property that it is, if it is one. -/
theorem Line.readAssignments_of_isPlain {line : Line} (h : line.isPlain = true) :
    readAssignments line.render = Fragment.assignments [line] := by
  cases line with
  | blank => rfl
  | comment text =>
    rw [readAssignments_comment, strayAssignments_of_notMem (all_ne_lineFeed_iff.1 h)]
    rfl
  | heading text =>
    rw [readAssignments_heading (all_ne_lineFeed_iff.1 h)]
    rfl
  | property key value =>
    rw [isPlain, Bool.and_eq_true, List.all_eq_true] at h
    obtain ⟨hkey, hvalue⟩ := h
    have hequals : '=' ∉ key.toList := fun hmem => absurd (hkey _ hmem) (by decide)
    have hfeed : '\n' ∉ key.toList := fun hmem => absurd (hkey _ hmem) (by decide)
    have hline : '\n' ∉ ("CONFIG_" ++ key ++ "=" ++ value.render).toList := by
      simp [hfeed, Value.lineFeed_notMem_render hvalue]
    rw [render, readAssignments_append_lineFeed, readAssignments, Text.lines_of_notMem hline,
      List.filterMap_cons, assignment?_property hequals]
    rfl

/-- A property with a text is plain if the text has no line feeds and the property is for some
other text. -/
theorem Line.isPlain_property {key s : String} {value : Value}
    (hkey : (Line.property key (.raw "")).isPlain = true)
    (hvalue : value = .str s ∨ value = .raw s) (h : '\n' ∉ s.toList) :
    (Line.property key value).isPlain = true := by
  rw [isPlain, Bool.and_eq_true] at hkey ⊢
  refine ⟨hkey.1, ?_⟩
  rcases hvalue with rfl | rfl <;> exact all_ne_lineFeed_iff.2 h

/-! ## Fragments and files -/

namespace Fragment

theorem assignments_append (f g : Fragment) :
    assignments (f ++ g) = assignments f ++ assignments g :=
  List.filterMap_append

/-- A fragment is read line by line. -/
theorem readAssignments_render_cons (line : Line) (f : Fragment) :
    readAssignments (render (line :: f)) = readAssignments line.render ++ readAssignments f.render := by
  obtain ⟨text, htext⟩ := line.exists_render
  rw [render_cons, htext, readAssignments_append, readAssignments_append_lineFeed]

/-- A fragment of plain lines is read as its properties. -/
theorem readAssignments_render {f : Fragment} (h : ∀ line ∈ f, line.isPlain = true) :
    readAssignments f.render = f.assignments := by
  induction f with
  | nil => rfl
  | cons line f ih =>
    rw [List.forall_mem_cons] at h
    rw [readAssignments_render_cons, Line.readAssignments_of_isPlain h.1, ih h.2]
    exact (assignments_append [line] f).symm

end Fragment

/-- In the usual order the layer of the board comes behind the generated one. -/
theorem composedLayers_defaultOrder (generated : Fragment) (board : Option Fragment) :
    composedLayers defaultOrder generated board = generated :: board.toList := by
  cases board <;> rfl

/-- A file is read layer by layer. -/
theorem readAssignments_compose (order : LayerOrder) (generated : Fragment)
    (board : Option Fragment) :
    readAssignments (compose order generated board) =
      (composedLayers order generated board).flatMap fun f => readAssignments f.render :=
  filterMap_lines_compose assignment?_empty order generated board

end ReactorDeploy.Config
