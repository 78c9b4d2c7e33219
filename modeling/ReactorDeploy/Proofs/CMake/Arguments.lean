import ReactorDeploy.CMake.Descriptor
import ReactorDeploy.Proofs.Generation.Descriptor
import ReactorDeploy.Proofs.Text.Quoted
import ReactorDeploy.Proofs.Text.Scan

/-!
# Reading the arguments of a command

The arguments of a written command are read by splitting what is between its parentheses at the
blanks outside of quotes (`readArguments`). A quoted text is one argument whatever is in it
(`isClosed_quoted`), and so is any text that ends outside of quotes and has no blank there. Behind
such arguments the last one is read back if it is one argument at all
(`readArguments_commandText_iff`), and that is what the arguments of a descriptor come down to:
the texts that it sets as they are have to be single arguments, and then all of it is read back
(`readsBack_descriptor_iff`).
-/

namespace ReactorDeploy

namespace CMake

/-! ## Splitting at blanks -/

/-- Where a scan of arguments is: outside of quotes, within them, or there behind a backslash. -/
inductive QuoteMode where
  | outside
  | inside
  | escaped
  deriving DecidableEq, Repr

namespace QuoteMode

/-- Where a scan is behind a character. -/
def next : QuoteMode → Char → QuoteMode
  | .outside, c => if c = '"' then .inside else .outside
  | .inside, c => if c = '"' then .outside else if c = '\\' then .escaped else .inside
  | .escaped, _ => .inside

/-- Whether a character separates arguments. -/
def separates (m : QuoteMode) (c : Char) : Bool :=
  m == .outside && Text.isBlank c

/-- Where a scan is behind a text, if nothing in the text separates arguments. -/
def after? (m : QuoteMode) : List Char → Option QuoteMode
  | [] => some m
  | c :: cs => if m.separates c then none else (m.next c).after? cs

theorem after?_append (m : QuoteMode) (cs ds : List Char) :
    m.after? (cs ++ ds) = (m.after? cs).bind fun m' => m'.after? ds := by
  induction cs generalizing m with
  | nil => rfl
  | cons c cs ih =>
    simp only [List.cons_append, after?]
    split
    · rfl
    · exact ih _

/-- What is escaped stays within quotes. -/
theorem after?_escape (cs : List Char) :
    QuoteMode.inside.after? (cs.flatMap Text.escapeChar) = some .inside := by
  induction cs with
  | nil => rfl
  | cons c cs ih =>
    have hchar : QuoteMode.inside.after? (Text.escapeChar c) = some .inside := by
      unfold Text.escapeChar
      split
      · rfl
      · next h =>
        rw [not_or] at h
        simp [after?, separates, next, h]
    rw [List.flatMap_cons, after?_append, hchar]
    exact ih

end QuoteMode

/-- The pieces of a text between the characters that separate arguments. -/
def splitFrom : QuoteMode → List Char → List (List Char)
  | _, [] => [[]]
  | m, c :: cs =>
    if m.separates c then [] :: splitFrom .outside cs
    else (splitFrom (m.next c) cs).modifyHead (c :: ·)

/-- The arguments in a text: its pieces between the blanks outside of quotes, the empty ones left
out. -/
def splitArguments (s : String) : List String :=
  ((splitFrom .outside s.toList).filter fun piece => !piece.isEmpty).map String.ofList

/-- A text is one argument: there is something in it, and nothing separates it. -/
def isSingle (s : String) : Bool :=
  !s.toList.isEmpty && (QuoteMode.outside.after? s.toList).isSome

/-- A text is one argument that ends outside of quotes. -/
def isClosed (s : String) : Bool :=
  !s.toList.isEmpty && QuoteMode.outside.after? s.toList == some .outside

theorem splitFrom_ne_nil (m : QuoteMode) (cs : List Char) : splitFrom m cs ≠ [] := by
  cases cs with
  | nil => nofun
  | cons c cs =>
    unfold splitFrom
    split
    · nofun
    · rw [Ne, List.modifyHead_eq_nil_iff]
      exact splitFrom_ne_nil _ cs

/-- A start that nothing separates belongs to the first piece. -/
theorem splitFrom_append {m m' : QuoteMode} {cs : List Char} (h : m.after? cs = some m')
    (ds : List Char) : splitFrom m (cs ++ ds) = (splitFrom m' ds).modifyHead (cs ++ ·) := by
  induction cs generalizing m with
  | nil =>
    cases h
    exact (congrFun List.modifyHead_id _).symm
  | cons c cs ih =>
    rw [QuoteMode.after?] at h
    split at h
    · cases h
    · next hc =>
      rw [List.cons_append, splitFrom, if_neg hc, ih h, List.modifyHead_modifyHead]
      rfl

/-- A text is one piece just if nothing separates it. -/
theorem splitFrom_eq_singleton_iff {m : QuoteMode} {cs : List Char} :
    splitFrom m cs = [cs] ↔ (m.after? cs).isSome = true := by
  induction cs generalizing m with
  | nil => exact iff_of_true rfl rfl
  | cons c cs ih =>
    rw [splitFrom, QuoteMode.after?]
    split
    · exact iff_of_false (by simp) (by simp)
    · rw [← ih]
      obtain ⟨first, rest, hsplit⟩ := List.exists_cons_of_ne_nil (splitFrom_ne_nil (m.next c) cs)
      rw [hsplit]
      simp

/-- What separates arguments is all that is left out between the pieces. -/
theorem length_splitFrom (m : QuoteMode) (cs : List Char) :
    (splitFrom m cs).flatten.length + (splitFrom m cs).length = cs.length + 1 := by
  induction cs generalizing m with
  | nil => rfl
  | cons c cs ih =>
    rw [splitFrom]
    split
    · have hrest := ih .outside
      simp only [List.flatten_cons, List.nil_append, List.length_cons]
      omega
    · have hrest := ih (m.next c)
      obtain ⟨first, rest, hsplit⟩ := List.exists_cons_of_ne_nil (splitFrom_ne_nil (m.next c) cs)
      rw [hsplit] at hrest ⊢
      simp only [List.modifyHead_cons, List.flatten_cons, List.length_append, List.length_cons]
        at hrest ⊢
      omega

/-- A text is read as one argument, itself, just if it is one. -/
theorem splitArguments_eq_singleton_iff {s : String} :
    splitArguments s = [s] ↔ isSingle s = true := by
  rw [isSingle, Bool.and_eq_true, ← splitFrom_eq_singleton_iff]
  constructor
  · intro h
    have hpieces : (splitFrom .outside s.toList).filter (fun piece => !piece.isEmpty) =
        [s.toList] := by
      have hlists := congrArg (List.map String.toList) h
      rw [splitArguments, List.map_map] at hlists
      simpa [Function.comp_def] using hlists
    -- Nothing is left out of the text, so that there is just one piece.
    have hall : (splitFrom .outside s.toList).flatten = s.toList := by
      rw [← List.flatten_filter_not_isEmpty, hpieces, List.flatten_singleton]
    have hlength := length_splitFrom .outside s.toList
    rw [hall] at hlength
    have hone : (splitFrom .outside s.toList).length = 1 := by omega
    obtain ⟨piece, hpiece⟩ := List.length_eq_one_iff.1 hone
    rw [hpiece] at hpieces ⊢
    have hmem : s.toList ∈ [piece].filter fun piece => !piece.isEmpty := by
      rw [hpieces]
      exact .head _
    obtain ⟨hmem, hne⟩ := List.mem_filter.1 hmem
    exact ⟨hne, by rw [List.mem_singleton.1 hmem]⟩
  · rintro ⟨hne, hsplit⟩
    rw [splitArguments, hsplit,
      List.filter_cons_of_pos (p := fun piece : List Char => !piece.isEmpty) hne]
    exact congrArg (fun t => [t]) String.ofList_toList

theorem isSingle_of_isClosed {s : String} (h : isClosed s = true) : isSingle s = true := by
  rw [isClosed, Bool.and_eq_true, beq_iff_eq] at h
  rw [isSingle, h.1, h.2]
  rfl

/-- A quoted text is one argument, whatever is in it. -/
theorem isClosed_quoted (s : String) : isClosed (quoted s) = true := by
  have htext : (quoted s).toList = '"' :: (s.toList.flatMap Text.escapeChar ++ ['"']) := by
    rw [quoted, Text.quotedByReplacement_eq, Text.quoted]
    simp
  have hstart : QuoteMode.outside.after? ('"' :: (s.toList.flatMap Text.escapeChar ++ ['"'])) =
      QuoteMode.inside.after? (s.toList.flatMap Text.escapeChar ++ ['"']) := rfl
  rw [isClosed, htext, hstart, QuoteMode.after?_append, QuoteMode.after?_escape]
  rfl

/-- An argument that ends outside of quotes is split off at the blank behind it. -/
theorem splitArguments_append {a : String} (h : isClosed a = true) (t : String) :
    splitArguments (a ++ " " ++ t) = a :: splitArguments t := by
  rw [isClosed, Bool.and_eq_true, beq_iff_eq] at h
  obtain ⟨hne, hafter⟩ := h
  have htext : (a ++ " " ++ t).toList = a.toList ++ ' ' :: t.toList := by simp
  have hblank : splitFrom .outside (' ' :: t.toList) = [] :: splitFrom .outside t.toList := rfl
  rw [splitArguments, htext, splitFrom_append hafter, hblank, List.modifyHead_cons,
    List.append_nil, List.filter_cons_of_pos (p := fun piece : List Char => !piece.isEmpty) hne,
    List.map_cons, String.ofList_toList]
  rfl

/-- Arguments that end outside of quotes are split off one after the other. -/
theorem splitArguments_intercalate {init : List String} (h : ∀ a ∈ init, isClosed a = true)
    (last : String) :
    splitArguments (" ".intercalate (init ++ [last])) = init ++ splitArguments last := by
  induction init with
  | nil => rw [List.nil_append, String.intercalate_singleton, List.nil_append]
  | cons a init ih =>
    rw [List.forall_mem_cons] at h
    obtain ⟨b, rest, hrest⟩ : ∃ b rest, init ++ [last] = b :: rest :=
      List.exists_cons_of_ne_nil (by simp)
    rw [List.cons_append, hrest, String.intercalate_cons_cons, ← hrest,
      splitArguments_append h.1, ih h.2, List.cons_append]

/-! ## Written commands -/

/-- What is behind the first opening parenthesis and before the last closing one. -/
def parenthesized (s : String) : String :=
  String.ofList (Text.dropTail (· != ')') (s.toList.dropWhile (· != '(')).tail).dropLast

/-- The arguments of a written command. -/
def readArguments (command : String) : List String :=
  splitArguments (parenthesized command)

/-- What is read is the text of the arguments, whatever it is. -/
theorem parenthesized_commandText {name : String} (h : '(' ∉ name.toList) (args : List String) :
    parenthesized (commandText name args) = " ".intercalate args := by
  generalize hbetween : " ".intercalate args = between
  have htext : (commandText name args).toList =
      name.toList ++ '(' :: (between.toList ++ [')']) := by
    rw [commandText, hbetween]
    simp
  have hname : ∀ c ∈ name.toList, (c != '(') = true := fun c hc =>
    bne_iff_ne.2 fun heq => h (heq ▸ hc)
  have hopen : Text.Stops (· != '(') ('(' :: (between.toList ++ [')'])) := Text.stops_cons.2 rfl
  have hclose : Text.Stops (· != ')') (between.toList ++ [')']).reverse := by
    rw [List.reverse_append]
    exact Text.stops_cons.2 rfl
  rw [parenthesized, htext, Text.dropWhile_run hname hopen, List.tail_cons,
    Text.dropTail_eq_self hclose, List.dropLast_concat, String.ofList_toList]

/-- Behind arguments that end outside of quotes, the last one is read back just if it is one. -/
theorem readArguments_commandText_iff {name : String} (hname : '(' ∉ name.toList)
    {init : List String} (hinit : ∀ a ∈ init, isClosed a = true) (last : String) :
    readArguments (commandText name (init ++ [last])) = init ++ [last] ↔ isSingle last = true := by
  rw [readArguments, parenthesized_commandText hname, splitArguments_intercalate hinit,
    List.append_cancel_left_eq, splitArguments_eq_singleton_iff]

theorem readArguments_commandText_singleton {name : String} (hname : '(' ∉ name.toList)
    (arg : String) : readArguments (commandText name [arg]) = [arg] ↔ isSingle arg = true := by
  rw [readArguments, parenthesized_commandText hname, String.intercalate_singleton,
    splitArguments_eq_singleton_iff]

/-- So arguments that all end outside of quotes are read back. -/
theorem readArguments_commandText {name : String} (hname : '(' ∉ name.toList) {args : List String}
    (h : ∀ a ∈ args, isClosed a = true) : readArguments (commandText name args) = args := by
  rcases List.eq_nil_or_concat' args with rfl | ⟨init, last, rfl⟩
  · rw [readArguments, parenthesized_commandText hname]
    rfl
  · rw [List.forall_mem_append, List.forall_mem_singleton] at h
    exact (readArguments_commandText_iff hname h.1 last).2 (isSingle_of_isClosed h.2)

/-! ## Documents -/

/-- The commands of a line are read back: the arguments in the text of each are those that the line
has for it. -/
def Line.ReadsBack (line : Line) : Prop :=
  ∀ c ∈ line.commands, readArguments (commandText c.1 c.2) = c.2

/-- So are all commands of a document. -/
def Document.ReadsBack (doc : Document) : Prop :=
  ∀ c ∈ commandsOf doc, readArguments (commandText c.1 c.2) = c.2

open Document (set setCache ifThen ifElse)

theorem readsBack_append {doc more : Document} :
    Document.ReadsBack (doc ++ more) ↔ doc.ReadsBack ∧ more.ReadsBack := by
  rw [Document.ReadsBack, commandsOf_append, List.forall_mem_append]
  rfl

theorem readsBack_nil : Document.ReadsBack [] :=
  nofun

theorem readsBack_cons {line : Line} {doc : Document} :
    Document.ReadsBack (line :: doc) ↔ line.ReadsBack ∧ doc.ReadsBack := by
  rw [Document.ReadsBack, commandsOf, List.forall_mem_append]
  rfl

theorem readsBack_command {name : String} {args : List String} :
    (Line.command name args).ReadsBack ↔ readArguments (commandText name args) = args := by
  rw [Line.ReadsBack, Line.commands, List.forall_mem_singleton]

/-- A command whose arguments all end outside of quotes is read back. -/
theorem readsBack_of_isClosed {name : String} (hname : '(' ∉ name.toList) {args : List String}
    (h : ∀ a ∈ args, isClosed a = true) : (Line.command name args).ReadsBack :=
  readsBack_command.2 (readArguments_commandText hname h)

theorem readsBack_blank : Line.blank.ReadsBack :=
  nofun

theorem readsBack_comment (text : String) : (Line.comment text).ReadsBack :=
  nofun

theorem readsBack_ifThen {condition : String} {body : Document} :
    (ifThen condition body).ReadsBack ↔ body.ReadsBack := by
  rw [Line.ReadsBack, ifThen, Line.commands]
  rfl

theorem readsBack_ifElse {condition : String} {body otherwise : Document} :
    (ifElse condition body otherwise).ReadsBack ↔ body.ReadsBack ∧ otherwise.ReadsBack := by
  rw [Line.ReadsBack, ifElse, Line.commands, List.forall_mem_append]
  rfl

/-- A variable that is set to a text as it is needs that to be one argument. -/
theorem readsBack_set_iff {name : String} (hname : isClosed name = true) (value : String) :
    (set name value).ReadsBack ↔ isSingle value = true := by
  rw [Document.set, readsBack_command]
  exact readArguments_commandText_iff (by decide) (List.forall_mem_singleton.2 hname) value

/-- A variable that is set to a quoted text may have any. -/
theorem readsBack_setCache {name : String} (hname : isClosed name = true) (value doc : String) :
    (setCache name value doc).ReadsBack := by
  refine readsBack_of_isClosed (by decide) ?_
  simp only [List.forall_mem_cons, hname, isClosed_quoted]
  decide

/-! ## Descriptors -/

/-- The texts that a descriptor sets as they are. -/
def Identity.texts (identity : Identity) : List String :=
  [identity.projectName, identity.mainName, identity.mainTarget, identity.projectRoot ++ "/.."] ++
    identity.federate.toList

/-- The rules of a descriptor behind the identity of its unit are read back. -/
theorem readsBack_rules (options : BuildOptions) :
    Document.ReadsBack ([.blank] ++
      (if options.createsMainTarget then [.command "add_executable" [var "LF_MAIN_TARGET"]]
        else []) ++
      [.command "include" [env "REACTOR_UC_PATH" ++ "/cmake/lfc.cmake"],
        .command "lf_setup" [],
        .command "lf_build_generated_code" [var "LF_MAIN_TARGET", var "CMAKE_CURRENT_SOURCE_DIR"],
        ifThen ("NOT TARGET " ++ var "LF_MAIN_TARGET")
          [.command "message" ["FATAL_ERROR", quoted ("Target " ++ var "LF_MAIN_TARGET" ++
            " was not created by " ++ options.builder)]]] ++
      (if options.installsTarget then
        [.command "install"
          ["TARGETS", var "LF_MAIN_TARGET", "DESTINATION", var "PROJECT_ROOT" ++ "/bin"]]
        else []) ++
      [.blank]) := by
  have hexecutable : (Line.command "add_executable" [var "LF_MAIN_TARGET"]).ReadsBack :=
    readsBack_of_isClosed (by decide) (by decide)
  have hinclude : (Line.command "include" [env "REACTOR_UC_PATH" ++ "/cmake/lfc.cmake"]).ReadsBack :=
    readsBack_of_isClosed (by decide) (by decide)
  have hsetup : (Line.command "lf_setup" []).ReadsBack :=
    readsBack_of_isClosed (by decide) nofun
  have hbuild : (Line.command "lf_build_generated_code"
      [var "LF_MAIN_TARGET", var "CMAKE_CURRENT_SOURCE_DIR"]).ReadsBack :=
    readsBack_of_isClosed (by decide) (by decide)
  have hmessage : ∀ text, (Line.command "message" ["FATAL_ERROR", quoted text]).ReadsBack := by
    intro text
    refine readsBack_of_isClosed (by decide) ?_
    simp only [List.forall_mem_cons, isClosed_quoted]
    decide
  have hinstall : (Line.command "install"
      ["TARGETS", var "LF_MAIN_TARGET", "DESTINATION", var "PROJECT_ROOT" ++ "/bin"]).ReadsBack :=
    readsBack_of_isClosed (by decide) (by decide)
  cases options.createsMainTarget <;> cases options.installsTarget <;>
    simp [readsBack_cons, readsBack_nil, readsBack_blank, readsBack_ifThen, hexecutable, hinclude,
      hsetup, hbuild, hmessage, hinstall]

/-- Without what it starts with, a descriptor is read back just if the texts that it sets as they
are are single arguments. -/
theorem readsBack_descriptor_iff {first : Document} {identity : Identity} {options : BuildOptions} :
    (descriptor first identity options).ReadsBack ↔
      first.ReadsBack ∧ ∀ text ∈ identity.texts, isSingle text = true := by
  have hversion : (Line.command "cmake_minimum_required" ["VERSION", "3.20.0"]).ReadsBack :=
    readsBack_of_isClosed (by decide) (by decide)
  have hproject : (Line.command "project" [identity.projectName]).ReadsBack ↔
      isSingle identity.projectName = true :=
    readsBack_command.trans (readArguments_commandText_singleton (by decide) _)
  have hmain := readsBack_set_iff (show isClosed "LF_MAIN" = true by decide) identity.mainName
  have htarget := readsBack_set_iff (show isClosed "LF_MAIN_TARGET" = true by decide)
    identity.mainTarget
  have hroot := readsBack_set_iff (show isClosed "PROJECT_ROOT" = true by decide)
    (identity.projectRoot ++ "/..")
  have hkconfig : Document.ReadsBack (if options.hasKconfigRoot then
      [set "KCONFIG_ROOT" (var "CMAKE_CURRENT_SOURCE_DIR" ++ "/Kconfig")] else []) := by
    split
    · exact readsBack_cons.2 ⟨(readsBack_set_iff (by decide) _).2 (by decide), readsBack_nil⟩
    · exact readsBack_nil
  have hlevel : (set "LOG_LEVEL" identity.logLevel.constant).ReadsBack := by
    refine (readsBack_set_iff (by decide) _).2 ?_
    cases identity.logLevel <;> decide
  have hfederate : Document.ReadsBack (identity.federate.toList.map fun f => set "FEDERATE" f) ↔
      ∀ f ∈ identity.federate.toList, isSingle f = true := by
    cases identity.federate with
    | none => exact iff_of_true readsBack_nil nofun
    | some f =>
      simp only [Option.toList_some, List.map_singleton, readsBack_cons, readsBack_nil, and_true,
        List.forall_mem_singleton]
      exact readsBack_set_iff (by decide) f
  have hrules := readsBack_rules options
  simp only [readsBack_append] at hrules
  simp only [descriptor, Identity.texts, readsBack_append, readsBack_cons, hversion, hproject, hmain,
    htarget, hroot, hkconfig, hlevel, hfederate, hrules, readsBack_nil, List.forall_mem_append,
    List.forall_mem_cons, List.not_mem_nil, false_implies, implies_true, true_and, and_true,
    and_assoc]

/-! ## Commands in a text -/

/-- A command stands in a text, indented and with a line feed behind it. -/
def HasCommand (text : String) (c : String × List String) : Prop :=
  ∃ before depth after, text = before ++ (indent depth ++ commandText c.1 c.2 ++ "\n") ++ after

theorem HasCommand.append_left {text : String} {c : String × List String} (h : HasCommand text c)
    (more : String) : HasCommand (more ++ text) c := by
  obtain ⟨before, depth, after, rfl⟩ := h
  exact ⟨more ++ before, depth, after, by simp only [String.append_assoc]⟩

theorem HasCommand.append_right {text : String} {c : String × List String} (h : HasCommand text c)
    (more : String) : HasCommand (text ++ more) c := by
  obtain ⟨before, depth, after, rfl⟩ := h
  exact ⟨before, depth, after ++ more, by simp only [String.append_assoc]⟩

mutual

/-- The commands of a line stand in its written form. -/
theorem Line.hasCommand_renderAt {c : String × List String} :
    ∀ (line : Line) (depth : Nat), c ∈ line.commands → HasCommand (line.renderAt depth) c
  | .command name args, depth, h => by
    rw [List.mem_singleton.1 h]
    exact ⟨"", depth, "", by rw [String.empty_append, String.append_empty, Line.renderAt]⟩
  | .raw _, _, h | .blank, _, h | .comment _, _, h => by cases h
  | .conditional condition body none, depth, h => by
    rw [Line.commands] at h
    rw [Line.renderAt]
    have hbody := hasCommand_renderLines body (depth + 1) h
    exact ((hbody.append_left _).append_right _).append_right _
  | .conditional condition body (some otherwise), depth, h => by
    rw [Line.commands, List.mem_append] at h
    rw [Line.renderAt]
    rcases h with h | h
    · have hbody := hasCommand_renderLines body (depth + 1) h
      exact (((((hbody.append_left _).append_right _).append_right _).append_right _).append_right
        _).append_right _
    · have hotherwise := hasCommand_renderLines otherwise (depth + 1) h
      exact ((hotherwise.append_left _).append_right _).append_right _

/-- The commands of lines stand in their written form. -/
theorem hasCommand_renderLines {c : String × List String} :
    ∀ (lines : List Line) (depth : Nat), c ∈ commandsOf lines → HasCommand (renderLines depth lines) c
  | [], _, h => by cases h
  | line :: lines, depth, h => by
    rw [renderLines]
    rcases List.mem_append.1 h with h | h
    · exact (Line.hasCommand_renderAt line depth h).append_right _
    · exact (hasCommand_renderLines lines depth h).append_left _

end

end CMake

end ReactorDeploy
