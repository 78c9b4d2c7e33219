import ReactorDeploy.Proofs.Command.Creating
import ReactorDeploy.Proofs.Manifest.Check
import ReactorDeploy.Proofs.Toml.Persistence
import ReactorDeploy.Proofs.Toml.Verbatim

/-!
# When a new manifest reads back

The name of a new project is put between quotes as it stands. The manifest that comes of it can be
read back, with that name and nothing else out of place, just if every character of the name may
stand there (`Project.readsBack_template_iff`): what is read for the name is what stands between
the quotes at the end of its line, and no later line can make it another
(`Project.read_of_parse_template`).
-/

namespace ReactorDeploy

namespace Toml

variable {rest : List Char} {lines : List Line}

/-- A comment says nothing. -/
theorem ReadsAs.comment {text : List Char} (htext : ∀ c ∈ text, Quoted.isPlain c)
    (h : ReadsAs rest lines) : ReadsAs ('#' :: (text ++ '\n' :: rest)) lines := by
  intro limit hlimit
  cases limit with
  | zero => cases hlimit
  | succ limit =>
    have hclose : closeLine? ('#' :: (text ++ '\n' :: rest)) = some rest := by
      have hstop : Text.Stops Quoted.isPlain ('\n' :: rest) := Text.stops_cons.2 rfl
      have hskip : skipBlanks ('#' :: (text ++ '\n' :: rest)) = '#' :: (text ++ '\n' :: rest) :=
        skipBlanks_of_stops (Text.stops_cons.2 rfl)
      unfold closeLine?
      rw [hskip]
      show dropLineEnd? ((text ++ '\n' :: rest).dropWhile Quoted.isPlain) = some rest
      rw [Text.dropWhile_run htext hstop]
      rfl
    have hread := h limit (by simp at hlimit; omega)
    show (closeLine? ('#' :: (text ++ '\n' :: rest))).bind (readLines limit) = _
    rw [hclose]
    exact hread

end Toml

namespace Project

open Toml (Block Line Plain ReadsAs)

/-! ## The text of a new manifest -/

/-- The options of a new project. -/
def targetBlock : Block where
  header := some (.table ⟨[], "target"⟩)
  pairs := [("platform", .text "native"), ("logging", .text "info")]

/-- The queue sizes of a new project. -/
def sizingBlock : Block where
  header := some (.table ⟨[], "sizing"⟩)
  pairs := [("events", .number 8), ("reactions", .number 8)]

/-- Comments, each on a line. -/
def comments (texts : List String) (rest : List Char) : List Char :=
  texts.foldr (fun text rest => '#' :: (text.toList ++ '\n' :: rest)) rest

/-- The comments on the network of a new project. -/
def networkComments : List String :=
  [" Federations only: \"tcp\" (default) or \"sicslowpan\".",
    " net-interface = \"sicslowpan\""]

/-- The comments on the federates of a new project. -/
def federateComments : List String :=
  [" Declare federates to generate a federation instead of a single application.",
    " [[federates]]", " name = \"sender\"", " platform = \"zephyr\"", "",
    " [[federates]]", " name = \"receiver\"", " board = \"rpi_pico\""]

/-- What comes behind the line with the name in a new manifest. -/
def templateEnd : List Char :=
  '\n' :: (targetBlock.render.toList ++ comments networkComments
    ('\n' :: (sizingBlock.render.toList ++ '\n' :: comments federateComments [])))

theorem toList_targetBlock : targetBlock.render.toList = "[target]\n".toList ++
    ("platform = \"native\"\n".toList ++ "logging = \"info\"\n".toList) := by
  decide

theorem toList_sizingBlock : sizingBlock.render.toList = "[sizing]\n".toList ++
    ("events = 8\n".toList ++ "reactions = 8\n".toList) := by
  decide

set_option maxRecDepth 4000 in
/-- A new manifest has the name between quotes at the end of its second line. -/
theorem toList_template (name : String) :
    (template name).toList = "[project]\n".toList ++ ("name = ".toList ++
      '"' :: (name.toList ++ '"' :: '\n' :: templateEnd)) := by
  have hquote : ∀ cs, "name = \"".toList ++ cs = "name = ".toList ++ '"' :: cs := fun _ => rfl
  unfold template templateEnd comments networkComments federateComments
  rw [toList_targetBlock, toList_sizingBlock]
  simp only [List.foldr_cons, List.foldr_nil, String.toList_append, List.append_assoc, hquote,
    List.cons_append, List.append_cancel_left_eq, List.cons.injEq, true_and]
  -- A text is much slower to evaluate than the list of its characters.
  repeat rw [String.toList_ofList]
  decide

theorem comments_readsAs {texts : List String} {rest : List Char} {lines : List Line}
    (htexts : ∀ text ∈ texts, ∀ c ∈ text.toList, Toml.Quoted.isPlain c) (h : ReadsAs rest lines) :
    ReadsAs (comments texts rest) lines := by
  induction texts with
  | nil => exact h
  | cons text texts ih =>
    obtain ⟨htext, htexts⟩ := List.forall_mem_cons.1 htexts
    exact .comment htext (ih htexts)

/-- The lines behind the name are those of the options and the queue sizes. -/
theorem readsAs_templateEnd : ReadsAs templateEnd (targetBlock.lines ++ sizingBlock.lines) := by
  have hnetwork : ∀ text ∈ networkComments, ∀ c ∈ text.toList, Toml.Quoted.isPlain c := by
    simp only [networkComments, List.forall_mem_cons, ← List.all_eq_true]
    repeat rw [String.toList_ofList]
    decide
  have hfederates : ∀ text ∈ federateComments, ∀ c ∈ text.toList, Toml.Quoted.isPlain c := by
    simp only [federateComments, List.forall_mem_cons, ← List.all_eq_true]
    repeat rw [String.toList_ofList]
    decide
  have hsizing := ReadsAs.block (b := sizingBlock) (by decide)
    (.blank (comments_readsAs hfederates .nil))
  rw [List.append_nil] at hsizing
  exact .blank (.block (by decide) (comments_readsAs hnetwork hsizing.blank))

set_option maxRecDepth 4000 in
/-- Nothing in a new manifest behind the name can be taken for the end of a form between triple
quotes. -/
theorem not_quotes_isInfix_templateEnd :
    ¬ ['"', '"', '"'] <:+: '"' :: '\n' :: templateEnd := by
  simp only [templateEnd, toList_targetBlock, toList_sizingBlock, comments, networkComments,
    federateComments, List.foldr_cons, List.foldr_nil]
  repeat rw [String.toList_ofList]
  decide

/-! ## Reading a new manifest -/

/-- The line with the name is read as far as the string in it can be. -/
theorem readPair_name (cs : List Char) :
    Toml.readPair ("name = ".toList ++ '"' :: cs) = do
      let (text, rest) ← Toml.Quoted.read ('"' :: cs)
      return (⟨[], "name"⟩, .string (String.ofList text), ← Toml.closeLine? rest) := by
  have hkey : (⟨[], "name"⟩ : Toml.Key).isBare := by
    decide
  have hstop : Text.Stops Toml.isBare (' ' :: '=' :: ' ' :: '"' :: cs) := Text.stops_cons.2 rfl
  have hread := Toml.readKey_render hkey hstop (by simp [Toml.skipBlanks, Toml.isInlineBlank])
  have hequals : Toml.readKeyEquals ("name = ".toList ++ '"' :: cs) =
      some (⟨[], "name"⟩, ' ' :: '"' :: cs) := by
    have hrender : "name = ".toList ++ '"' :: cs =
        (⟨[], "name"⟩ : Toml.Key).render.toList ++ ' ' :: '=' :: ' ' :: '"' :: cs := by
      simp [Toml.Key.render]
    rw [hrender, Toml.readKeyEquals, hread]
    rfl
  have hvalue : Toml.readValue ('"' :: cs) =
      (Toml.Quoted.read ('"' :: cs)).map fun (text, rest) => (.string (String.ofList text), rest) :=
    rfl
  have hblank : Toml.skipBlanks (' ' :: '"' :: cs) = '"' :: cs := rfl
  rw [Toml.readPair, hequals, Option.bind_eq_bind, Option.bind_some]
  dsimp only
  rw [hblank, hvalue]
  cases Toml.Quoted.read ('"' :: cs) <;> rfl

/-- What is read for the name decides how a new manifest goes on. -/
theorem readLines_template (limit : Nat) (cs : List Char) :
    Toml.readLines (limit + 2) ("[project]\n".toList ++ ("name = ".toList ++ '"' :: cs)) = do
      let (text, rest) ← Toml.Quoted.read ('"' :: cs)
      let lines ← Toml.readLines limit (← Toml.closeLine? rest)
      return .header (.table ⟨[], "project"⟩) ::
        .pair ⟨[], "name"⟩ (.string (String.ofList text)) :: lines := by
  have hkey : (Toml.Header.table ⟨[], "project"⟩).key.isBare := by
    decide
  have hheader := Toml.readHeader_render hkey ("name = ".toList ++ '"' :: cs)
  have hrender : (Toml.Header.table ⟨[], "project"⟩).render.toList = "[project]\n".toList := by
    decide
  rw [hrender] at hheader
  have hfirst : ∀ {limit cs}, Toml.readLines (limit + 1) ("[project]\n".toList ++ cs) =
      (Toml.readHeader ("[project]\n".toList ++ cs)).bind fun read =>
        (Toml.readLines limit read.2).bind fun lines => some (.header read.1 :: lines) :=
    fun {_ _} => rfl
  have hsecond : ∀ {limit cs}, Toml.readLines (limit + 1) ("name = ".toList ++ cs) =
      (Toml.readPair ("name = ".toList ++ cs)).bind fun read =>
        (Toml.readLines limit read.2.2).bind fun lines => some (.pair read.1 read.2.1 :: lines) :=
    fun {_ _} => rfl
  rw [hfirst, hheader, Option.bind_some]
  dsimp only
  rw [hsecond, readPair_name]
  cases Toml.Quoted.read ('"' :: cs) with
  | none => rfl
  | some read =>
    obtain ⟨text, rest⟩ := read
    simp only [Option.bind_eq_bind, Option.pure_def, Option.bind_some, Option.bind_assoc]

/-- There are more characters in a new manifest than behind the name. -/
theorem length_templateEnd_lt (name : String) :
    templateEnd.length + 2 ≤ (template name).toList.length := by
  -- Said of any end, because the length of this one would be evaluated.
  have hend : ∀ tail : List Char, tail.length + 2 ≤
      ("[project]\n".toList ++ ("name = ".toList ++
        '"' :: (name.toList ++ '"' :: '\n' :: tail))).length := by
    intro tail
    simp only [List.length_append, List.length_cons]
    omega
  rw [toList_template]
  exact hend templateEnd

/-- A new manifest is a document whose first pair is what is read for the name. -/
theorem exists_read?_template (name : String) :
    ∃ limit, templateEnd.length < limit ∧ Toml.Document.read? (template name).toList = do
      let (text, rest) ← Toml.Quoted.read ('"' :: (name.toList ++ '"' :: '\n' :: templateEnd))
      let lines ← Toml.readLines limit (← Toml.closeLine? rest)
      return ⟨[], ⟨.table ⟨[], "project"⟩, (⟨[], "name"⟩, .string (String.ofList text)) ::
        (Toml.Document.ofLines lines).root⟩ :: (Toml.Document.ofLines lines).sections⟩ := by
  have hread : Toml.Document.read? (template name).toList =
      (Toml.readLines ((template name).toList.length + 1) (template name).toList).map
        Toml.Document.ofLines := by
    rw [toList_template]
    rfl
  have hlong := length_templateEnd_lt name
  obtain ⟨limit, hlimit⟩ : ∃ limit, (template name).toList.length + 1 = limit + 2 :=
    ⟨(template name).toList.length - 1, by omega⟩
  refine ⟨limit, by omega, ?_⟩
  rw [hread, hlimit, toList_template, readLines_template]
  simp only [Option.map_eq_bind, Option.bind_eq_bind, Option.pure_def, Option.bind_assoc]
  rfl

/-- The manifest of a new project, as it is read. -/
def newManifest (name : String) : Manifest where
  name := name
  target := { platform := .user .native, logging := .user .info }
  sizing := { events := 8, reactions := 8 }

/-- A name that may stand between quotes as it is makes a manifest that is read back. -/
theorem parse_template {name : String} (hname : Text.allBlank name = false)
    (hplain : ∀ c ∈ name.toList, Toml.Quoted.isPlainBasic c) :
    Manifest.parse (template name) = .ok (newManifest name) := by
  obtain ⟨limit, hlimit, hread⟩ := exists_read?_template name
  have hquoted := Toml.Quoted.read_of_isPlainBasic hplain templateEnd
  have hdata : (Toml.parse? (template name)).bind (Manifest.ofData? .toml) =
      some (newManifest name) := by
    have hclose : Toml.closeLine? ('\n' :: templateEnd) = some templateEnd := rfl
    rw [Toml.parse?, hread, hquoted]
    simp only [Option.bind_eq_bind, Option.pure_def, Option.bind_some, hclose,
      readsAs_templateEnd limit hlimit, String.ofList_toList]
    rfl
  have hblank : (newManifest name).hasBlankName = false := hname
  rw [Manifest.parse, hdata]
  dsimp only
  rw [hblank]
  rfl

/-- The name of a manifest is the one that its data has. -/
theorem name_of_ofData? {c : Data.Convention} {entries sub : List (String × Data)} {s : String}
    {m : Manifest} (h : Manifest.ofData? c (.table entries) = some m)
    (hproject : entries.lookup "project" = some (.table sub))
    (hname : sub.lookup "name" = some (.string s)) : m.name = s := by
  obtain ⟨project, hlookup, h⟩ := Option.bind_eq_some_iff.1 h
  obtain rfl : project = .table sub := Option.some.inj (hlookup.symm.trans hproject)
  obtain ⟨⟨name, main⟩, hread, h⟩ := Option.bind_eq_some_iff.1 h
  obtain ⟨target, -, h⟩ := Option.bind_eq_some_iff.1 h
  obtain ⟨sizing, -, h⟩ := Option.bind_eq_some_iff.1 h
  obtain ⟨sharedNumbering, -, h⟩ := Option.bind_eq_some_iff.1 h
  obtain ⟨federates, -, h⟩ := Option.bind_eq_some_iff.1 h
  cases h
  obtain ⟨d, hd, hread⟩ := Option.bind_eq_some_iff.1 hread
  obtain rfl : d = .string s := Option.some.inj (hd.symm.trans hname)
  obtain ⟨text, htext, hread⟩ := Option.bind_eq_some_iff.1 hread
  obtain ⟨main, -, hread⟩ := Option.bind_eq_some_iff.1 hread
  cases hread
  exact (Option.some.inj htext).symm

/-- The name that a new manifest is read with is what stands between the quotes. -/
theorem read_of_parse_template {name : String} {m : Manifest}
    (h : Manifest.parse (template name) = .ok m) :
    ∃ rest, Toml.Quoted.read ('"' :: (name.toList ++ '"' :: '\n' :: templateEnd)) =
      some (m.name.toList, rest) := by
  obtain ⟨limit, -, hread⟩ := exists_read?_template name
  unfold Manifest.parse at h
  split at h
  · cases h
  · next read hmanifest =>
    obtain ⟨data, hdata, hmanifest⟩ := Option.bind_eq_some_iff.1 hmanifest
    obtain ⟨doc, hdoc, hdata⟩ := Option.bind_eq_some_iff.1 hdata
    rw [hread] at hdoc
    obtain ⟨⟨text, rest⟩, hquoted, hdoc⟩ := Option.bind_eq_some_iff.1 hdoc
    obtain ⟨after, -, hdoc⟩ := Option.bind_eq_some_iff.1 hdoc
    obtain ⟨lines, -, hdoc⟩ := Option.bind_eq_some_iff.1 hdoc
    cases hdoc
    obtain ⟨entries, sub, rfl, hproject, hname⟩ := Toml.Document.exists_of_toData? hdata
    have hnamed := name_of_ofData? hmanifest hproject hname
    split at h
    · cases h
    · cases h
      have htext : read.assignOrdinals.name.toList = text := by
        rw [Manifest.assignOrdinals, hnamed, String.toList_ofList]
      exact ⟨rest, by rw [hquoted, htext]⟩

theorem check_newManifest (name : String) : (newManifest name).check = .ok [] :=
  Manifest.check_eq_ok_iff.2 ⟨rfl, nofun⟩

/-- Whether a text is read as a manifest with the given name and no federates, which is accepted. -/
def ReadsBack (text name : String) : Prop :=
  ∃ m, Manifest.parse text = .ok m ∧ m.name = name ∧ m.federates = [] ∧
    ∃ warnings, m.check = .ok warnings

/-- **A new manifest reads back just if every character of its name may stand between quotes as it
is.** -/
theorem readsBack_template_iff {name : String} (hname : Text.allBlank name = false) :
    ReadsBack (template name) name ↔ ∀ c ∈ name.toList, Toml.Quoted.isPlainBasic c := by
  constructor
  · rintro ⟨m, hparse, hm, -, -⟩
    obtain ⟨rest, hread⟩ := read_of_parse_template hparse
    rw [hm] at hread
    exact ((Toml.Quoted.read_verbatim_iff not_quotes_isInfix_templateEnd).1 hread).2
  · intro hplain
    exact ⟨_, parse_template hname hplain, rfl, rfl, [], check_newManifest name⟩

end Project

namespace Command

open Files (Location Tree)
open Project

/-- The manifest that the command writes is the new one. -/
theorem manifest_of_init {t : Tree} {cwd : Location} {name : String}
    (hdone : ((Action.init name).run t cwd).exitCode = 0) :
    ∃ f, ((Action.init name).run t cwd).tree.node? (place cwd name manifestFile) =
      some (.file f) ∧ f.content = (template name).toUTF8 := by
  obtain ⟨htree, hcode⟩ := run_init t cwd name
  obtain ⟨done, rest, hfiles, hadded, -, hend⟩ := added_init t cwd name
  rw [hend.1 (hcode.1 hdone), List.append_nil] at hfiles
  rw [htree]
  exact ⟨_, hadded.there (manifestFile, template name) (hfiles ▸ .head _), rfl⟩

/-- The manifest of a project that has been made is one that reads back with the project's name, just
if every character of the name may stand between quotes as it is. -/
theorem new_manifest_reads_back_iff {t : Tree} {cwd : Location} {name : String}
    (hname : Text.allBlank name = false)
    (hdone : ((Action.init name).run t cwd).exitCode = 0) :
    ∃ text f, ((Action.init name).run t cwd).tree.node? (place cwd name manifestFile) =
      some (.file f) ∧ f.content = text.toUTF8 ∧
      (ReadsBack text name ↔ ∀ c ∈ name.toList, Toml.Quoted.isPlainBasic c) := by
  obtain ⟨f, hnode, hcontent⟩ := manifest_of_init hdone
  exact ⟨template name, f, hnode, hcontent, readsBack_template_iff hname⟩

/-- The manifest of a project with a plain name reads back. -/
theorem blink_manifest_reads_back :
    ∃ text f, ((Action.init "blink").run ⟨[]⟩ []).tree.node? ["blink", manifestFile] =
      some (.file f) ∧ f.content = text.toUTF8 ∧ ReadsBack text "blink" := by
  have hdone : (Project.init ⟨[]⟩ [] "blink").1 = .ok () := by
    decide +kernel
  have hname : Text.allBlank "blink" = false := by
    decide
  have hplain : "blink".toList.all Toml.Quoted.isPlainBasic = true := by
    decide
  obtain ⟨text, f, hnode, hcontent, hback⟩ :=
    new_manifest_reads_back_iff hname ((run_init ⟨[]⟩ [] "blink").2.2 hdone)
  exact ⟨text, f, hnode, hcontent, hback.2 (List.all_eq_true.1 hplain)⟩

/-- A quotation mark in a name ends the string that the name is put into. -/
theorem quote_ends_name :
    ((Action.init "a\"b").run ⟨[]⟩ []).exitCode = 0 ∧
      ¬ ReadsBack (template "a\"b") "a\"b" := by
  have hdone : (Project.init ⟨[]⟩ [] "a\"b").1 = .ok () := by
    decide +kernel
  refine ⟨(run_init ⟨[]⟩ [] "a\"b").2.2 hdone, fun hback => ?_⟩
  have hplain := (readsBack_template_iff (by decide)).1 hback
  cases hplain '"' (by decide)

end Command

end ReactorDeploy
