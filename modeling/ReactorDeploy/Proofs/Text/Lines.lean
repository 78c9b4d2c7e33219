import ReactorDeploy.Source
import ReactorDeploy.Proofs.Text.Scan
import Mathlib.Data.List.Basic
import Mathlib.Data.List.Induction

/-!
# Lines

The lines of a text are what stands between its line feeds. A text that is put together with line
feeds in between has the lines of its parts, one after the other (`lines_append`,
`lines_intercalate_cons`, `lines_linesText`). What a text says behind a start is what its lines have
there that start so (`said`), and a text that is written line by line says what these lines do
(`said_linesText`).
-/

namespace ReactorDeploy

theorem linesText_cons (line : String) (lines : List String) :
    linesText (line :: lines) = line ++ "\n" ++ linesText lines := by
  rw [linesText, List.map_cons, String.join_cons]
  rfl

theorem linesText_append (lines more : List String) :
    linesText (lines ++ more) = linesText lines ++ linesText more := by
  rw [linesText, List.map_append, String.join_append]
  rfl

namespace Text

/-- What stands between the line feeds of a text. -/
def lines (s : String) : List String :=
  (s.toList.splitOn '\n').map String.ofList

/-- A text is what its lines make. -/
theorem lines_injective : Function.Injective lines := by
  intro s t h
  have hsplit : s.toList.splitOn '\n' = t.toList.splitOn '\n' :=
    List.map_injective_iff.2 (fun _ _ => String.ofList_injective) h
  have hchars := congrArg ['\n'].intercalate hsplit
  rw [List.intercalate_splitOn, List.intercalate_splitOn] at hchars
  exact String.toList_inj.1 hchars

theorem lines_ne_nil (s : String) : lines s ≠ [] := by
  rw [lines, Ne, List.map_eq_nil_iff]
  exact List.splitOn_ne_nil '\n' _

/-- A line feed ends one line and starts another one. -/
theorem lines_append (s t : String) : lines (s ++ "\n" ++ t) = lines s ++ lines t := by
  have htext : (s ++ "\n" ++ t).toList = s.toList ++ '\n' :: t.toList := by simp
  rw [lines, htext, List.splitOn_append_cons_self, List.map_append]
  rfl

/-- A text without line feeds is one line. -/
theorem lines_of_notMem {s : String} (h : '\n' ∉ s.toList) : lines s = [s] := by
  rw [lines, List.splitOn_eq_singleton h, List.map_singleton, String.ofList_toList]

/-- What is split at a separator does not have it. -/
theorem notMem_of_mem_splitOn {a : Char} {cs piece : List Char} (h : piece ∈ cs.splitOn a) :
    a ∉ piece := by
  induction cs generalizing piece with
  | nil =>
    rw [List.splitOn_nil, List.mem_singleton] at h
    rw [h]
    exact List.not_mem_nil
  | cons c cs ih =>
    rw [List.splitOn_cons_eq_if_modifyHead] at h
    split at h
    · rcases List.mem_cons.1 h with rfl | h
      · exact List.not_mem_nil
      · exact ih h
    · next hc =>
      obtain ⟨first, rest, hsplit⟩ := List.exists_cons_of_ne_nil (List.splitOn_ne_nil a cs)
      rw [hsplit] at h ih
      rcases List.mem_cons.1 h with rfl | h
      · refine List.not_mem_cons_of_ne_of_not_mem ?_ (ih (.head _))
        rintro rfl
        exact hc (beq_self_eq_true _)
      · exact ih (.tail _ h)

/-- No line feed is in a line. -/
theorem lineFeed_notMem_of_mem_lines {s line : String} (h : line ∈ lines s) :
    '\n' ∉ line.toList := by
  obtain ⟨cs, hcs, rfl⟩ := List.mem_map.1 h
  rw [String.toList_ofList]
  exact notMem_of_mem_splitOn hcs

/-- A start without line feeds belongs to the first line. -/
theorem lines_append_of_notMem {start : String} (h : '\n' ∉ start.toList) (s : String) :
    lines (start ++ s) = (lines s).modifyHead (start ++ ·) := by
  have hsplit : ∀ cs : List Char, '\n' ∉ cs → (cs ++ s.toList).splitOn '\n' =
      (s.toList.splitOn '\n').modifyHead (cs ++ ·) := by
    intro cs hcs
    induction cs with
    | nil => exact (congrFun List.modifyHead_id _).symm
    | cons c cs ih =>
      rw [List.mem_cons, not_or] at hcs
      rw [List.cons_append, List.splitOn_cons_eq_if_modifyHead, if_neg (by simpa using Ne.symm hcs.1),
        ih hcs.2, List.modifyHead_modifyHead]
      rfl
  obtain ⟨first, rest, hfirst⟩ := List.exists_cons_of_ne_nil (List.splitOn_ne_nil '\n' s.toList)
  rw [lines, lines, String.toList_append, hsplit _ h, hfirst]
  simp

/-- What comes behind a text goes on with its last line. -/
theorem exists_lines_append (s : String) :
    ∃ init last, lines s = init ++ [last] ∧
      ∀ t, lines (s ++ t) = init ++ (lines t).modifyHead (last ++ ·) := by
  by_cases hfeed : '\n' ∈ s.toList.reverse
  · -- The last line is what stands behind the last line feed.
    obtain ⟨back, front, hsplit, hback⟩ := List.eq_append_cons_of_mem hfeed
    have htext : s = String.ofList front.reverse ++ "\n" ++ String.ofList back.reverse := by
      rw [← String.toList_inj, ← List.reverse_reverse s.toList, hsplit]
      simp
    have hlast : '\n' ∉ (String.ofList back.reverse).toList := by simpa using hback
    refine ⟨lines (String.ofList front.reverse), String.ofList back.reverse, ?_, fun t => ?_⟩
    · rw [htext, lines_append, lines_of_notMem hlast]
    · rw [htext, String.append_assoc, lines_append, lines_append_of_notMem hlast]
  · have hline : '\n' ∉ s.toList := by simpa using hfeed
    exact ⟨[], s, lines_of_notMem hline, lines_append_of_notMem hline⟩

@[simp] theorem lines_empty : lines "" = [""] := rfl

/-- A line feed at the start of a text leaves an empty line. -/
theorem lines_lineFeed_append (s : String) : lines ("\n" ++ s) = "" :: lines s := by
  have hlines := lines_append "" s
  rwa [String.empty_append, lines_empty] at hlines

/-- A line feed at the end of a text leaves an empty line. -/
theorem lines_append_lineFeed (s : String) : lines (s ++ "\n") = lines s ++ [""] := by
  rw [← lines_empty, ← lines_append, String.append_empty]

/-- Line feeds at the end of a text leave as many empty lines. -/
theorem lines_append_lineFeeds (s : String) {cs : List Char} (h : ∀ c ∈ cs, c = '\n') :
    lines (s ++ String.ofList cs) = lines s ++ List.replicate cs.length "" := by
  induction cs generalizing s with
  | nil => simp
  | cons c cs ih =>
    obtain ⟨rfl, hcs⟩ := List.forall_mem_cons.1 h
    have hsplit : s ++ String.ofList ('\n' :: cs) = s ++ "\n" ++ String.ofList cs := by
      simp [← String.toList_inj]
    rw [hsplit, ih _ hcs, lines_append_lineFeed, List.length_cons, List.replicate_succ]
    simp

/-- Without the line feeds at its end a text has the same lines, less some empty ones. -/
theorem exists_lines_stripEnd (s : String) :
    ∃ n, lines s = lines (stripEnd (· == '\n') s) ++ List.replicate n "" := by
  obtain ⟨cs, hs, hcs⟩ := exists_stripEnd_append (· == '\n') s
  refine ⟨cs.length, ?_⟩
  rw [← lines_append_lineFeeds _ fun c hc => by simpa using hcs c hc]
  congr 1
  simp [← String.toList_inj, hs]

/-- A text that does not end with a line feed ends with a line that is not empty. -/
theorem getLast?_lines_ne_empty {s : String} {c : Char} (h : s.toList.getLast? = some c)
    (hc : c ≠ '\n') : (lines s).getLast? ≠ some "" := by
  obtain ⟨cs, hs⟩ := List.getLast?_eq_some_iff.1 h
  obtain ⟨init, last, -, happend⟩ := exists_lines_append (String.ofList cs)
  have htext : s = String.ofList cs ++ String.ofList [c] := by
    rw [← String.toList_inj, hs]
    simp
  have hline : lines (String.ofList [c]) = [String.ofList [c]] :=
    lines_of_notMem (by simpa using hc.symm)
  rw [htext, happend, hline]
  simp

/-- A line that ends with no blank is there without the blanks at the end of the text, too. -/
theorem mem_lines_of_append_blanks {s line : String} {c : Char} {cs : List Char}
    (hcs : ∀ d ∈ cs, isBlank d = true) (h : line ∈ lines (s ++ String.ofList cs))
    (hlast : line.toList.getLast? = some c) (hc : isBlank c = false) : line ∈ lines s := by
  -- The blanks are taken off one by one, from the last one on.
  induction cs using List.reverseRecOn with
  | nil => simpa using h
  | append_singleton cs d ih =>
    simp only [List.forall_mem_append, List.forall_mem_singleton] at hcs
    refine ih hcs.1 ?_
    rw [String.ofList_append, ← String.append_assoc] at h
    by_cases hfeed : d = '\n'
    · subst hfeed
      rw [lines_append_lineFeed, List.mem_append, List.mem_singleton] at h
      refine h.resolve_right ?_
      rintro rfl
      cases hlast
    · obtain ⟨init, last, hlines, happend⟩ := exists_lines_append (s ++ String.ofList cs)
      rw [happend, lines_of_notMem (by simpa using Ne.symm hfeed), List.modifyHead_cons,
        List.mem_append, List.mem_singleton] at h
      rw [hlines]
      refine List.mem_append_left _ (h.resolve_right ?_)
      rintro rfl
      obtain rfl : d = c := by simpa using hlast
      rw [hcs.2] at hc
      cases hc

/-- Texts with two line feeds in between have an empty line in between. -/
theorem lines_intercalate_cons (s : String) (texts : List String) :
    lines ("\n\n".intercalate (s :: texts)) =
      lines s ++ texts.flatMap fun t => "" :: lines t := by
  induction texts generalizing s with
  | nil => simp
  | cons t texts ih =>
    have hgap : s ++ "\n\n" ++ "\n\n".intercalate (t :: texts) =
        s ++ "\n" ++ ("" ++ "\n" ++ "\n\n".intercalate (t :: texts)) := by
      simp only [String.append_assoc, String.empty_append]
      rfl
    rw [String.intercalate_cons_cons, hgap, lines_append, lines_append, ih, lines_empty,
      List.flatMap_cons, List.singleton_append, List.cons_append]

/-- Texts with two line feeds in between have their lines with an empty one in between. -/
theorem lines_intercalate {texts : List String} (h : texts ≠ []) :
    lines ("\n\n".intercalate texts) = [""].intercalate (texts.map lines) := by
  induction texts with
  | nil => exact absurd rfl h
  | cons s texts ih =>
    cases texts with
    | nil => simp
    | cons t texts =>
      rw [List.map_cons, List.map_cons, List.intercalate_cons_cons, ← List.map_cons,
        ← ih (List.cons_ne_nil t texts), lines_intercalate_cons, lines_intercalate_cons]
      simp

/-- A text that is written line by line has the lines of these texts, and an empty one behind
them. -/
theorem lines_linesText (texts : List String) :
    lines (linesText texts) = texts.flatMap lines ++ [""] := by
  induction texts with
  | nil => rfl
  | cons s texts ih =>
    rw [linesText_cons, lines_append, ih, List.flatMap_cons, List.append_assoc]

/-- A text that is written line by line has just these lines, and an empty one behind them, if no
line feed is in any of them. -/
theorem lines_linesText_eq {texts : List String} (h : ∀ s ∈ texts, '\n' ∉ s.toList) :
    lines (linesText texts) = texts ++ [""] := by
  rw [lines_linesText, List.flatMap_congr fun s hs => lines_of_notMem (h s hs),
    List.flatMap_singleton']

/-! ## What is read of lines -/

section
variable {α : Type} {read : String → Option α}

/-- Nothing is read of the line feed at the end of a text if nothing is read of an empty line. -/
theorem filterMap_lines_append_lineFeed (hread : read "" = none) (s : String) :
    (lines (s ++ "\n")).filterMap read = (lines s).filterMap read := by
  simp [lines_append_lineFeed, hread]

/-- Without the line feeds at its end a text is read as with them. -/
theorem filterMap_lines_stripEnd (hread : read "" = none) (s : String) :
    (lines (stripEnd (· == '\n') s)).filterMap read = (lines s).filterMap read := by
  obtain ⟨n, hn⟩ := exists_lines_stripEnd s
  simp [hn, List.filterMap_append, hread]

end

/-! ## Lines that start alike -/

/-- The rest of a line behind a start, if it has that start. -/
def behind? (start line : String) : Option String :=
  (start.toList.isPrefixOf? line.toList).map String.ofList

/-- The rests of the lines that have a start. -/
def behind (start : String) (lines : List String) : List String :=
  lines.filterMap (behind? start)

/-- What a text says behind a start: the rests of its lines that have that start. -/
def said (start text : String) : List String :=
  behind start (lines text)

theorem behind_append (start : String) (lines more : List String) :
    behind start (lines ++ more) = behind start lines ++ behind start more :=
  List.filterMap_append

theorem behind?_eq_some_iff {start line rest : String} :
    behind? start line = some rest ↔ line = start ++ rest := by
  rw [behind?, Option.map_eq_some_iff]
  constructor
  · rintro ⟨cs, hcs, rfl⟩
    rw [List.isPrefixOf?_eq_some_iff_append_eq] at hcs
    simp [← String.toList_inj, hcs]
  · rintro rfl
    refine ⟨rest.toList, ?_, String.ofList_toList⟩
    rw [List.isPrefixOf?_eq_some_iff_append_eq, String.toList_append]

@[simp] theorem behind?_append (start rest : String) :
    behind? start (start ++ rest) = some rest :=
  behind?_eq_some_iff.2 rfl

theorem behind?_eq_none_iff {start line : String} :
    behind? start line = none ↔ ¬ start.toList <+: line.toList := by
  rw [Option.eq_none_iff_forall_ne_some]
  constructor
  · rintro h ⟨rest, hrest⟩
    refine h (String.ofList rest) (behind?_eq_some_iff.2 ?_)
    rw [← String.toList_inj, String.toList_append, String.toList_ofList, hrest]
  · intro h rest hrest
    rw [behind?_eq_some_iff.1 hrest, String.toList_append] at h
    exact h (List.prefix_append _ _)

/-- A line with another start has a start only if one of the two starts with the other. -/
theorem behind?_eq_none_of_other {start other : String}
    (h : ¬ start.toList <+: other.toList ∧ ¬ other.toList <+: start.toList) (rest : String) :
    behind? start (other ++ rest) = none := by
  rw [behind?_eq_none_iff, String.toList_append]
  exact fun hstart =>
    (List.prefix_or_prefix_of_prefix hstart (List.prefix_append _ _)).elim h.1 h.2

/-- What a text says has no line feeds. -/
theorem lineFeed_notMem_of_mem_said {start text rest : String} (h : rest ∈ said start text) :
    '\n' ∉ rest.toList := by
  obtain ⟨line, hline, hrest⟩ := List.mem_filterMap.1 h
  obtain rfl := behind?_eq_some_iff.1 hrest
  intro hmem
  refine lineFeed_notMem_of_mem_lines hline ?_
  rw [String.toList_append]
  exact List.mem_append_right _ hmem

/-- A text that is written line by line says what these lines say. -/
theorem said_linesText {start : String} (hstart : start ≠ "") {texts : List String}
    (h : ∀ s ∈ texts, '\n' ∉ s.toList) : said start (linesText texts) = behind start texts := by
  have hempty : behind start [""] = [] := by
    refine List.filterMap_eq_nil_iff.2 fun line hline => ?_
    rw [List.mem_singleton.1 hline]
    refine Option.eq_none_iff_forall_ne_some.2 fun rest hrest => hstart ?_
    exact (String.append_eq_empty_iff.1 (behind?_eq_some_iff.1 hrest).symm).1
  rw [said, lines_linesText_eq h, behind_append, hempty, List.append_nil]

end Text

end ReactorDeploy
