import ReactorDeploy.CMake.Descriptor
import ReactorDeploy.Proofs.Text.Quoted

/-!
# What a build descriptor sets

The text of a descriptor is read line by line. A line may be indented, and what it sets a variable
to is what it has behind the name (`settings`), which is the value if it is a quoted argument, or
one that stands for itself, and the parenthesis that closes the command (`argument?`).

A text that a descriptor takes in as it is may set something by itself, on its lines behind the first
one (`straySettings`). Names that have no line feed do not. With such names a descriptor sets what
it says about its unit, once, and besides what the texts before it and the directory set
(`settings_descriptor`).
-/

namespace ReactorDeploy

namespace CMake

open Text (behind? escaped lines)

/-! ## Arguments -/

/-- A text that opens an argument in brackets, which are two on either side with equals signs in
between. -/
def opensBracket (s : String) : Bool :=
  match s.toList with
  | '[' :: cs => (cs.dropWhile (· == '=')).head? == some '['
  | _ => false

/-- A text that stands for itself as an argument: there is something in it, and nothing that ends an
argument, separates the elements of a list, or starts a comment, a reference or an escape. A dollar
sign is taken for the start of a reference whatever is behind it, as a make script does that has the
same text. -/
def isUnquoted (s : String) : Bool :=
  !s.toList.isEmpty && !opensBracket s &&
    s.toList.all fun c => c ∉ [' ', '\t', '\r', '\n', '(', ')', ';', '#', '$', '"', '\\']

/-- The last argument of a command on a line, from the rest of the line with the parenthesis that
closes the command. -/
def argument? (rest : String) : Option String :=
  match Text.readQuoted? rest with
  | some (value, closing) => if closing = ")" then some value else none
  | none =>
    let value := String.ofList rest.toList.dropLast
    if isUnquoted value = true ∧ rest = value ++ ")" then some value else none

theorem ne_nil_of_isUnquoted {s : String} (h : isUnquoted s = true) : s.toList ≠ [] := by
  rintro hnil
  rw [isUnquoted, hnil] at h
  cases h

theorem notMem_of_isUnquoted {s : String} (h : isUnquoted s = true) :
    ∀ c ∈ s.toList, c ∉ [' ', '\t', '\r', '\n', '(', ')', ';', '#', '$', '"', '\\'] := by
  rw [isUnquoted, Bool.and_eq_true, List.all_eq_true] at h
  exact fun c hc => of_decide_eq_true (h.2 c hc)

theorem lineFeed_notMem_of_isUnquoted {s : String} (h : isUnquoted s = true) :
    '\n' ∉ s.toList :=
  fun hmem => notMem_of_isUnquoted h _ hmem (by decide)

/-- A text that stands for itself does so within quotes, too. -/
theorem literal?_of_isUnquoted {s : String} (h : isUnquoted s = true) :
    Text.literal? ("\"" ++ s ++ "\"") = some s := by
  have hplain : ∀ c ∈ s.toList, c ≠ '"' ∧ c ≠ '\\' := fun c hc => by
    have hother := notMem_of_isUnquoted h c hc
    constructor <;> rintro rfl <;> exact hother (by decide)
  rw [← Text.quoted_eq hplain, Text.literal?_quoted]

/-- A text that stands for itself is none in quotes. -/
theorem readQuoted?_of_isUnquoted {s : String} (h : isUnquoted s = true) (rest : String) :
    Text.readQuoted? (s ++ rest) = none := by
  have hplain := notMem_of_isUnquoted h
  obtain ⟨c, cs, hs⟩ := List.exists_cons_of_ne_nil (ne_nil_of_isUnquoted h)
  rw [hs] at hplain
  have hc : c ≠ '"' := by
    rintro rfl
    exact hplain _ (.head _) (by decide)
  unfold Text.readQuoted?
  rw [String.toList_append, hs]
  split
  · next ds heq => exact absurd (List.cons.inj heq).1 hc
  · rfl

/-- A text is read as the argument that it is just if it stands for itself. -/
theorem argument?_eq_self_iff {s : String} :
    argument? (s ++ ")") = some s ↔ isUnquoted s = true := by
  unfold argument?
  cases hread : Text.readQuoted? (s ++ ")") with
  | none => simp
  | some found =>
    have hunquoted : ¬ isUnquoted s = true := fun h => by
      rw [readQuoted?_of_isUnquoted h] at hread
      cases hread
    refine iff_of_false (fun h => ?_) hunquoted
    -- The quotation marks are part of the text, but not of what is read.
    obtain ⟨value, closing⟩ := found
    have hlength := Text.length_lt_of_readQuoted? hread
    simp only at h
    split at h
    · next hclosing =>
      cases h
      rw [hclosing, String.length_append] at hlength
      exact absurd hlength (by simp)
    · cases h

example : argument? "\"a b\\\"\")" = some "a b\"" ∧ argument? "a b)" = none ∧
    argument? "[=[a]=])" = none := by
  decide +kernel

/-! ## Lines -/

/-- A line without the blanks at its start. -/
def unindented (line : String) : String :=
  String.ofList (line.toList.dropWhile Text.isBlank)

/-- How a line starts that sets a variable. -/
def settingStart (name : String) : String :=
  "set(" ++ name ++ " "

/-- What a line sets a variable to, as it is written, up to the end of the line. -/
def setting? (name line : String) : Option String :=
  behind? (settingStart name) (unindented line)

/-- What the lines of a text set a variable to. -/
def settings (name text : String) : List String :=
  (lines text).filterMap (setting? name)

/-- What the lines of a text behind its first one set a variable to. -/
def straySettings (name text : String) : List String :=
  (lines text).tail.filterMap (setting? name)

variable {name : String}

theorem setting?_eq_none_iff {line : String} :
    setting? name line = none ↔
      ¬ (settingStart name).toList <+: line.toList.dropWhile Text.isBlank := by
  rw [setting?, Text.behind?_eq_none_iff, unindented, String.toList_ofList]

theorem setting?_empty : setting? name "" = none := by
  rw [setting?_eq_none_iff]
  simp [settingStart]

theorem settings_empty : settings name "" = [] := by
  rw [settings, Text.lines_empty, List.filterMap_cons, setting?_empty, List.filterMap_nil]

theorem settings_append (s t : String) :
    settings name (s ++ "\n" ++ t) = settings name s ++ settings name t := by
  rw [settings, Text.lines_append, List.filterMap_append]
  rfl

theorem settings_append_lineFeed (s : String) :
    settings name (s ++ "\n") = settings name s :=
  Text.filterMap_lines_append_lineFeed setting?_empty s

theorem straySettings_of_notMem {s : String} (h : '\n' ∉ s.toList) : straySettings name s = [] := by
  rw [straySettings, Text.lines_of_notMem h]
  rfl

/-- A line that starts in this way does not set a variable, whatever comes behind. -/
def StartsOtherwise (name start : String) : Prop :=
  '\n' ∉ start.toList ∧ ¬ (settingStart name).toList <+: (unindented start).toList ∧
    ¬ (unindented start).toList <+: (settingStart name).toList
  deriving Decidable

/-- Behind such a start, a text sets a variable only on its later lines. -/
theorem settings_of_startsOtherwise {start : String} (h : StartsOtherwise name start)
    (rest : String) : settings name (start ++ rest) = straySettings name rest := by
  obtain ⟨hline, hother⟩ := h
  obtain ⟨first, others, hfirst⟩ := List.exists_cons_of_ne_nil (Text.lines_ne_nil rest)
  -- Something of the start is left, or else it would start in no other way.
  have hfilled : ¬ (start.toList.dropWhile Text.isBlank).isEmpty = true := fun hempty => by
    rw [unindented, String.toList_ofList, List.isEmpty_iff.1 hempty] at hother
    exact hother.2 List.nil_prefix
  have hunindented : unindented (start ++ first) = unindented start ++ first := by
    rw [unindented, String.toList_append, List.dropWhile_append, if_neg hfilled,
      String.ofList_append, String.ofList_toList]
    rfl
  have hnone : setting? name (start ++ first) = none := by
    rw [setting?, hunindented]
    exact Text.behind?_eq_none_of_other hother first
  rw [settings, Text.lines_append_of_notMem hline, straySettings, hfirst, List.modifyHead_cons,
    List.filterMap_cons, hnone, List.tail_cons]

/-- What a variable is set to is read back with the parenthesis behind it if neither it nor the name
has a line feed. -/
theorem settings_set {value : String} (hname : '\n' ∉ name.toList) (hvalue : '\n' ∉ value.toList) :
    settings name ("set(" ++ name ++ " " ++ value ++ ")") = [value ++ ")"] := by
  have hline : '\n' ∉ ("set(" ++ name ++ " " ++ value ++ ")").toList := by simp [hname, hvalue]
  have hunindented : unindented ("set(" ++ name ++ " " ++ value ++ ")") =
      settingStart name ++ (value ++ ")") := by
    simp [← String.toList_inj, unindented, settingStart, Text.isBlank]
  rw [settings, Text.lines_of_notMem hline, List.filterMap_cons, setting?, hunindented,
    Text.behind?_append]
  rfl

/-! ## Stray lines -/

/-- What a list starts with is there without what it has from some other element on. -/
theorem prefix_append_cons_iff {start : List Char} {c : Char} (h : c ∉ start)
    (cs rest : List Char) : start <+: cs ++ c :: rest ↔ start <+: cs := by
  induction start generalizing cs with
  | nil => exact iff_of_true List.nil_prefix List.nil_prefix
  | cons d start ih =>
    rw [List.mem_cons, not_or] at h
    cases cs with
    | nil =>
      rw [List.nil_append, List.cons_prefix_cons, List.prefix_nil]
      exact iff_of_false (fun hd => h.1 hd.1.symm) (List.cons_ne_nil d start)
    | cons e cs => rw [List.cons_append, List.cons_prefix_cons, List.cons_prefix_cons, ih h.2]

/-- Whether a line sets a variable is not a matter of what comes behind it, from a character on that
is not in the start of such a line. -/
theorem setting?_append_eq_none_iff {line suffix : String} {c : Char}
    (hsuffix : suffix.toList.head? = some c) (hblank : Text.isBlank c = false)
    (hc : c ∉ (settingStart name).toList) :
    setting? name (line ++ suffix) = none ↔ setting? name line = none := by
  obtain ⟨rest, hrest⟩ := List.head?_eq_some_iff.1 hsuffix
  have hdrop : (line.toList ++ c :: rest).dropWhile Text.isBlank =
      line.toList.dropWhile Text.isBlank ++ c :: rest := by
    rw [List.dropWhile_append]
    split
    · next hempty =>
      rw [List.isEmpty_iff.1 hempty, List.dropWhile_cons_of_neg (by simp [hblank]),
        List.nil_append]
    · rfl
  rw [setting?_eq_none_iff, setting?_eq_none_iff, String.toList_append, hrest, hdrop,
    prefix_append_cons_iff hc]

theorem setting?_escaped_eq_none_iff (hname : ∀ c ∈ name.toList, ¬ (c = '"' ∨ c = '\\'))
    {line : String} : setting? name (escaped line) = none ↔ setting? name line = none := by
  have hstart : ∀ c ∈ (settingStart name).toList, ¬ (c = '"' ∨ c = '\\') := by
    simp only [settingStart, String.toList_append, List.forall_mem_append]
    exact ⟨⟨by simp, hname⟩, by simp⟩
  rw [setting?_eq_none_iff, setting?_eq_none_iff, escaped, String.toList_ofList,
    Text.dropWhile_isBlank_flatMap_escapeChar, Text.prefix_flatMap_escapeChar_iff hstart]

/-- A start without line feeds is on the first line. -/
theorem straySettings_append_of_notMem {start : String} (h : '\n' ∉ start.toList) (s : String) :
    straySettings name (start ++ s) = straySettings name s := by
  rw [straySettings, Text.lines_append_of_notMem h, straySettings, List.tail_modifyHead]

/-- Whether a text sets a variable on its later lines is not a matter of what comes behind it on the
last one, from such a character on. -/
theorem straySettings_append_eq_nil_iff {text suffix : String} {c : Char}
    (hsuffix : suffix.toList.head? = some c) (hblank : Text.isBlank c = false)
    (hc : c ∉ (settingStart name).toList) (hline : '\n' ∉ suffix.toList) :
    straySettings name (text ++ suffix) = [] ↔ straySettings name text = [] := by
  obtain ⟨init, last, hlines, happend⟩ := Text.exists_lines_append text
  have hlast : setting? name (last ++ suffix) = none ↔ setting? name last = none :=
    setting?_append_eq_none_iff hsuffix hblank hc
  rw [straySettings, straySettings, happend, hlines, Text.lines_of_notMem hline,
    List.modifyHead_cons]
  cases init with
  | nil => rfl
  | cons first init => simp [List.filterMap_eq_nil_iff, hlast]

/-- It is not a matter of escaping either. -/
theorem straySettings_escaped_eq_nil_iff (hname : ∀ c ∈ name.toList, ¬ (c = '"' ∨ c = '\\'))
    {text : String} : straySettings name (escaped text) = [] ↔ straySettings name text = [] := by
  rw [straySettings, straySettings, Text.lines_escaped, ← List.map_tail, List.filterMap_map,
    List.filterMap_eq_nil_iff, List.filterMap_eq_nil_iff]
  exact forall₂_congr fun line _ => setting?_escaped_eq_none_iff hname

/-! ## Documents -/

/-- A line of a document is written with a line feed at its end. -/
theorem Line.exists_renderAt (line : Line) (depth : Nat) :
    ∃ text, line.renderAt depth = text ++ "\n" := by
  have hend : "endif()\n" = "endif()" ++ "\n" := rfl
  match line with
  | .command name args => exact ⟨indent depth ++ commandText name args, by rw [renderAt]⟩
  | .raw text => exact ⟨indent depth ++ text, by rw [renderAt]⟩
  | .blank => exact ⟨"", by rw [renderAt, String.empty_append]⟩
  | .comment text => exact ⟨indent depth ++ "# " ++ text, by rw [renderAt]⟩
  | .conditional condition body none =>
    refine ⟨indent depth ++ "if(" ++ condition ++ ")\n" ++ renderLines (depth + 1) body ++
      indent depth ++ "endif()", ?_⟩
    rw [renderAt, hend, ← String.append_assoc]
  | .conditional condition body (some otherwise) =>
    refine ⟨indent depth ++ "if(" ++ condition ++ ")\n" ++ renderLines (depth + 1) body ++
      indent depth ++ "else()\n" ++ renderLines (depth + 1) otherwise ++ indent depth ++
      "endif()", ?_⟩
    rw [renderAt, hend, ← String.append_assoc]

/-- A document is read line by line. -/
theorem settings_renderLines (depth : Nat) (doc : Document) :
    settings name (renderLines depth doc) =
      doc.flatMap fun line => settings name (line.renderAt depth) := by
  induction doc with
  | nil => rw [renderLines, settings_empty, List.flatMap_nil]
  | cons line doc ih =>
    obtain ⟨text, htext⟩ := line.exists_renderAt depth
    rw [renderLines, htext, settings_append, ih, List.flatMap_cons, htext,
      settings_append_lineFeed]

/-! ## Descriptors -/

/-- The variables by which a descriptor says what its unit is. -/
def identityNames : List String :=
  ["LF_MAIN", "LF_MAIN_TARGET", "FEDERATE"]

theorem settings_blank : settings name (Line.blank.renderAt 0) = [] := by
  rw [Line.renderAt]
  exact (settings_append_lineFeed "").trans settings_empty

/-- A command is written on a line of its own. -/
theorem renderAt_command (name : String) (args : List String) :
    (Line.command name args).renderAt 0 = commandText name args ++ "\n" := by
  rw [Line.renderAt]
  exact congrArg (· ++ "\n") (String.empty_append)

theorem renderAt_set (name value : String) :
    (Document.set name value).renderAt 0 = "set(" ++ name ++ " " ++ value ++ ")" ++ "\n" := by
  rw [Document.set, renderAt_command, commandText]
  simp [← String.toList_inj]

/-- Arguments without line feeds are written on one line. -/
theorem lineFeed_notMem_intercalate {args : List String} (h : ∀ arg ∈ args, '\n' ∉ arg.toList) :
    '\n' ∉ (" ".intercalate args).toList := by
  induction args with
  | nil => exact List.not_mem_nil
  | cons arg args ih =>
    rw [List.forall_mem_cons] at h
    cases args with
    | nil =>
      rw [String.intercalate_singleton]
      exact h.1
    | cons next args =>
      rw [String.intercalate_cons_cons, String.toList_append, String.toList_append]
      simpa [h.1] using ih h.2

/-- Another command sets nothing if its arguments have no line feeds. -/
theorem settings_command {command : String} (h : StartsOtherwise name (command ++ "("))
    {args : List String} (hargs : ∀ arg ∈ args, '\n' ∉ arg.toList) :
    settings name ((Line.command command args).renderAt 0) = [] := by
  have hline : '\n' ∉ (" ".intercalate args ++ ")").toList := by
    simpa using lineFeed_notMem_intercalate hargs
  rw [renderAt_command, settings_append_lineFeed, commandText, String.append_assoc,
    settings_of_startsOtherwise h, straySettings_of_notMem hline]

/-- A command that sets another variable may only set one by the later lines of its value. -/
theorem settings_set_other {other : String} (h : StartsOtherwise name ("set(" ++ other ++ " "))
    (value : String) :
    settings name ((Document.set other value).renderAt 0) = straySettings name (value ++ ")") := by
  rw [renderAt_set, settings_append_lineFeed, String.append_assoc, settings_of_startsOtherwise h]

theorem settings_set_other_eq_nil_iff (hname : name ∈ identityNames) {other : String}
    (h : StartsOtherwise name ("set(" ++ other ++ " ")) {value : String} :
    settings name ((Document.set other value).renderAt 0) = [] ↔ straySettings name value = [] := by
  have hclosing : ∀ name ∈ identityNames, ')' ∉ (settingStart name).toList := by decide
  rw [settings_set_other h]
  exact straySettings_append_eq_nil_iff rfl rfl (hclosing name hname) (by decide)

/-- So may one that sets it unless the user has. -/
theorem settings_setCache_eq_nil_iff (hname : name ∈ identityNames) {other : String}
    (h : StartsOtherwise name ("set(" ++ other ++ " ")) {value doc : String}
    (hdoc : '\n' ∉ doc.toList) :
    settings name ((Document.setCache other value doc).renderAt 0) = [] ↔
      straySettings name value = [] := by
  generalize hsuffix : "\" CACHE STRING " ++ quoted doc ++ ")" = suffix
  have htext : commandText "set" [other, quoted value, "CACHE", "STRING", quoted doc] =
      "set(" ++ other ++ " " ++ ("\"" ++ (escaped value ++ suffix)) := by
    rw [← hsuffix, quoted, Text.quotedByReplacement_eq value]
    simp [← String.toList_inj, commandText, Text.quoted, escaped]
  have hhead : suffix.toList.head? = some '"' := by
    rw [← hsuffix, String.append_assoc]
    simp
  have hline : '\n' ∉ suffix.toList := by
    rw [← hsuffix, quoted, Text.quotedByReplacement_eq]
    simpa [Text.lineFeed_mem_quoted_iff] using hdoc
  have hquote : ∀ name ∈ identityNames, '"' ∉ (settingStart name).toList ∧
      ∀ c ∈ name.toList, ¬ (c = '"' ∨ c = '\\') := by
    simp [identityNames, settingStart]
  obtain ⟨hstart, hplain⟩ := hquote name hname
  rw [Document.setCache, renderAt_command, settings_append_lineFeed, htext,
    settings_of_startsOtherwise h, straySettings_append_of_notMem (by decide),
    straySettings_append_eq_nil_iff hhead rfl hstart hline, straySettings_escaped_eq_nil_iff hplain]

/-- What a descriptor says of its unit by one variable, if it has no line feed. -/
theorem settings_set_identity {other value : String} (hname : name ∈ identityNames)
    (hother : other ∈ identityNames) (hvalue : '\n' ∉ value.toList) :
    settings name ((Document.set other value).renderAt 0) =
      if name = other then [value ++ ")"] else [] := by
  by_cases heq : name = other
  · subst heq
    have hline : '\n' ∉ name.toList := by
      revert name
      decide
    rw [if_pos rfl, renderAt_set, settings_append_lineFeed, settings_set hline hvalue]
  · have hstart : ∀ name ∈ identityNames, ∀ other ∈ identityNames, name ≠ other →
        StartsOtherwise name ("set(" ++ other ++ " ") := by decide
    rw [if_neg heq, settings_set_other (hstart name hname other hother heq),
      straySettings_of_notMem (by simpa using hvalue)]

/-- A descriptor names the federate if there is one. -/
theorem settings_set_federate (hname : name ∈ identityNames) {federate : Option String}
    (h : ∀ f ∈ federate.toList, '\n' ∉ f.toList) :
    (federate.toList.map fun f => Document.set "FEDERATE" f).flatMap
        (fun line => settings name (line.renderAt 0)) =
      if name = "FEDERATE" then federate.toList.map (· ++ ")") else [] := by
  cases federate with
  | none => simp
  | some f =>
    have hline := settings_set_identity hname
      (show "FEDERATE" ∈ _ from .tail _ (.tail _ (.head _))) (h f (.head _))
    simp [hline]

/-- The check for the main target sets nothing, whatever the name of the tooling. -/
theorem settings_missingTarget (hname : name ∈ identityNames) {builder : String}
    (hbuilder : '\n' ∉ builder.toList) :
    settings name ((Document.ifThen ("NOT TARGET " ++ var "LF_MAIN_TARGET")
      [.command "message" ["FATAL_ERROR", quoted ("Target " ++ var "LF_MAIN_TARGET" ++
        " was not created by " ++ builder)]]).renderAt 0) = [] := by
  generalize htarget : "Target " ++ var "LF_MAIN_TARGET" ++ " was not created by " ++ builder = text
  have hline : '\n' ∉ (quoted text).toList := by
    rw [quoted, Text.quotedByReplacement_eq, Text.lineFeed_mem_quoted_iff, ← htarget]
    simp [var, hbuilder]
  have htext : (Document.ifThen ("NOT TARGET " ++ var "LF_MAIN_TARGET")
      [.command "message" ["FATAL_ERROR", quoted text]]).renderAt 0 =
      "if(" ++ ("NOT TARGET " ++ var "LF_MAIN_TARGET" ++ ")") ++ "\n" ++
        ("  message(" ++ ("FATAL_ERROR " ++ quoted text ++ ")") ++ "\n" ++
          ("endif(" ++ ")" ++ "\n")) := by
    simp [← String.toList_inj, Document.ifThen, Line.renderAt, renderLines, indent, commandText]
  have hstarts : ∀ name ∈ identityNames, ∀ start ∈ ["if(", "  message(", "endif("],
      StartsOtherwise name start := by decide
  have hothers := hstarts name hname
  simp only [List.forall_mem_cons] at hothers
  obtain ⟨hif, hmessage, hend, -⟩ := hothers
  rw [htext, settings_append, settings_append, settings_append_lineFeed,
    settings_of_startsOtherwise hif, settings_of_startsOtherwise hmessage,
    settings_of_startsOtherwise hend, straySettings_of_notMem (by simp [var]),
    straySettings_of_notMem (by simpa using hline), straySettings_of_notMem (by simp)]
  rfl

/-- The commands of a descriptor that are the same whatever the unit is. -/
def fixedCommands : List (String × List String) :=
  [("cmake_minimum_required", ["VERSION", "3.20.0"]),
    ("add_executable", [var "LF_MAIN_TARGET"]),
    ("include", [env "REACTOR_UC_PATH" ++ "/cmake/lfc.cmake"]),
    ("lf_setup", []),
    ("lf_build_generated_code", [var "LF_MAIN_TARGET", var "CMAKE_CURRENT_SOURCE_DIR"]),
    ("install", ["TARGETS", var "LF_MAIN_TARGET", "DESTINATION", var "PROJECT_ROOT" ++ "/bin"])]

theorem settings_fixedCommands (hname : name ∈ identityNames) :
    ∀ c ∈ fixedCommands, settings name ((Line.command c.1 c.2).renderAt 0) = [] := by
  have hstarts : ∀ name ∈ identityNames, ∀ c ∈ fixedCommands, StartsOtherwise name (c.1 ++ "(") := by
    decide
  have hlines : ∀ c ∈ fixedCommands, ∀ arg ∈ c.2, '\n' ∉ arg.toList := by decide
  exact fun c hc => settings_command (hstarts name hname c hc) (hlines c hc)

/-- A descriptor says what its unit is once. The texts before that may set the same variables, and the
directory of the unit may. -/
theorem settings_descriptor {first : Document} {identity : Identity} {options : BuildOptions}
    (hname : name ∈ identityNames)
    (hlines : ∀ text ∈ identity.projectName :: identity.mainName :: identity.mainTarget ::
      options.builder :: identity.federate.toList, '\n' ∉ text.toList) :
    settings name (descriptor first identity options).render =
      settings name first.render ++
      (if name = "LF_MAIN" then [identity.mainName ++ ")"] else []) ++
      (if name = "LF_MAIN_TARGET" then [identity.mainTarget ++ ")"] else []) ++
      straySettings name (identity.projectRoot ++ "/..)") ++
      (if name = "FEDERATE" then identity.federate.toList.map (· ++ ")") else []) := by
  simp only [List.forall_mem_cons] at hlines
  obtain ⟨hproject, hmain, htarget, hbuilder, hfederate⟩ := hlines
  have hothers : ∀ name ∈ identityNames, StartsOtherwise name ("project" ++ "(") ∧
      StartsOtherwise name ("set(" ++ "PROJECT_ROOT" ++ " ") ∧
      StartsOtherwise name ("set(" ++ "KCONFIG_ROOT" ++ " ") ∧
      StartsOtherwise name ("set(" ++ "LOG_LEVEL" ++ " ") := by decide
  obtain ⟨hprojectStart, hroot, hkconfig, hlevel⟩ := hothers name hname
  have hfixed := settings_fixedCommands hname
  simp only [fixedCommands, List.forall_mem_cons] at hfixed
  have hprojectLine : settings name
      ((Line.command "project" [identity.projectName]).renderAt 0) = [] :=
    settings_command hprojectStart (List.forall_mem_singleton.2 hproject)
  have hmainLine := settings_set_identity hname (show "LF_MAIN" ∈ _ from .head _) hmain
  have htargetLine :=
    settings_set_identity hname (show "LF_MAIN_TARGET" ∈ _ from .tail _ (.head _)) htarget
  have hrootLine : settings name
      ((Document.set "PROJECT_ROOT" (identity.projectRoot ++ "/..")).renderAt 0) =
        straySettings name (identity.projectRoot ++ "/..)") := by
    rw [settings_set_other hroot, String.append_assoc]
    rfl
  have hkconfigLine : settings name ((Document.set "KCONFIG_ROOT"
      (var "CMAKE_CURRENT_SOURCE_DIR" ++ "/Kconfig")).renderAt 0) = [] := by
    rw [settings_set_other hkconfig, straySettings_of_notMem (by decide)]
  have hlevelLine : settings name
      ((Document.set "LOG_LEVEL" identity.logLevel.constant).renderAt 0) = [] := by
    rw [settings_set_other hlevel, straySettings_of_notMem]
    cases identity.logLevel <;> decide
  have hfederateLines := settings_set_federate hname hfederate
  have hmissing := settings_missingTarget hname hbuilder
  rw [Document.render, settings_renderLines, descriptor, Document.render, settings_renderLines]
  simp only [List.flatMap_append, List.flatMap_cons, List.flatMap_nil, hfixed, settings_blank,
    hprojectLine, hmainLine, htargetLine, hrootLine, hlevelLine, hfederateLines, hmissing]
  cases options.hasKconfigRoot <;> cases options.createsMainTarget <;>
    cases options.installsTarget <;> simp [hfixed, hkconfigLine]

/-! ## What a descriptor says -/

/-- What the text of a descriptor says of its unit: the variables for the main reactor and its target
are set once, and that for the federate if there is one. -/
def Says (text main target : String) (federate : Option String) : Prop :=
  (settings "LF_MAIN" text).map argument? = [some main] ∧
  (settings "LF_MAIN_TARGET" text).map argument? = [some target] ∧
  (settings "FEDERATE" text).map argument? = federate.toList.map some

/-- One setting is left just if there are no other ones. -/
theorem map_argument?_eq_singleton_iff (before behind : List String) (value : String) :
    (before ++ [value ++ ")"] ++ behind).map argument? = [some value] ↔
      isUnquoted value = true ∧ before = [] ∧ behind = [] := by
  rw [← argument?_eq_self_iff]
  cases before <;> cases behind <;> simp

/-- With names that have no line feeds, a descriptor says what its unit is just if the names stand for
themselves, and neither the texts before that nor the directory of the unit set such a variable. -/
theorem says_descriptor_iff {first : Document} {identity : Identity} {options : BuildOptions}
    (hlines : ∀ text ∈ identity.projectName :: identity.mainName :: identity.mainTarget ::
      options.builder :: identity.federate.toList, '\n' ∉ text.toList) :
    Says (descriptor first identity options).render identity.mainName identity.mainTarget
        identity.federate ↔
      (∀ text ∈ identity.mainName :: identity.mainTarget :: identity.federate.toList,
        isUnquoted text = true) ∧
      ∀ name ∈ identityNames, settings name first.render = [] ∧
        straySettings name identity.projectRoot = [] := by
  have hroot : ∀ name ∈ identityNames,
      straySettings name (identity.projectRoot ++ "/..)") = [] ↔
        straySettings name identity.projectRoot = [] := fun name hname => by
    have hslash : ∀ name ∈ identityNames, '/' ∉ (settingStart name).toList := by decide
    exact straySettings_append_eq_nil_iff rfl rfl (hslash name hname) (by decide)
  have hmain : settings "LF_MAIN" (descriptor first identity options).render =
      settings "LF_MAIN" first.render ++ [identity.mainName ++ ")"] ++
        straySettings "LF_MAIN" (identity.projectRoot ++ "/..)") :=
    (settings_descriptor (.head _) hlines).trans (by simp)
  have htarget : settings "LF_MAIN_TARGET" (descriptor first identity options).render =
      settings "LF_MAIN_TARGET" first.render ++ [identity.mainTarget ++ ")"] ++
        straySettings "LF_MAIN_TARGET" (identity.projectRoot ++ "/..)") :=
    (settings_descriptor (.tail _ (.head _)) hlines).trans (by simp)
  have hfederate : settings "FEDERATE" (descriptor first identity options).render =
      settings "FEDERATE" first.render ++ straySettings "FEDERATE" (identity.projectRoot ++ "/..)") ++
        identity.federate.toList.map (· ++ ")") :=
    (settings_descriptor (.tail _ (.tail _ (.head _))) hlines).trans (by simp)
  have hfederateValue : (settings "FEDERATE" (descriptor first identity options).render).map
      argument? = identity.federate.toList.map some ↔
        (∀ f ∈ identity.federate.toList, isUnquoted f = true) ∧
          settings "FEDERATE" first.render = [] ∧
          straySettings "FEDERATE" (identity.projectRoot ++ "/..)") = [] := by
    rw [hfederate]
    cases identity.federate with
    | none => simp
    | some f =>
      have hone := map_argument?_eq_singleton_iff (settings "FEDERATE" first.render ++
        straySettings "FEDERATE" (identity.projectRoot ++ "/..)")) [] f
      simpa using hone
  rw [Says, hmain, htarget, hfederateValue, map_argument?_eq_singleton_iff,
    map_argument?_eq_singleton_iff]
  simp only [identityNames, List.forall_mem_cons, List.not_mem_nil, false_implies, implies_true,
    and_true] at hroot ⊢
  rw [hroot.1, hroot.2.1, hroot.2.2]
  constructor
  · rintro ⟨⟨hmain, hfirst, hstray⟩, ⟨htarget, hfirst', hstray'⟩, hfederate, hlast⟩
    exact ⟨⟨hmain, htarget, hfederate⟩, ⟨hfirst, hstray⟩, ⟨hfirst', hstray'⟩, hlast⟩
  · rintro ⟨⟨hmain, htarget, hfederate⟩, ⟨hfirst, hstray⟩, ⟨hfirst', hstray'⟩, hlast⟩
    exact ⟨⟨hmain, hfirst, hstray⟩, ⟨htarget, hfirst', hstray'⟩, hfederate, hlast⟩

end CMake

end ReactorDeploy
