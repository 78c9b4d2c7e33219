import ReactorDeploy.Command.Run
import ReactorDeploy.Proofs.Files.Delivery

/-!
# What a new project adds

Making a project makes the directory of its name and writes files into it. What that adds to a tree
is directories that the name leads through and those of the files that are written
(`Project.Added`); a failure may leave a part of it. Whether a file that was there can be among
them depends on the first look at the directory: it takes a directory to be missing that the name
does not lead to yet, but would after some directories have been made (`Project.Overlooks`). But for
such names nothing that was there is changed (`Project.init_adds_only`).
-/

namespace ReactorDeploy.Project

open Files (Location Path Step Node File FileError Tree)
open Files.Tree

/-- Where the file of a given name belongs in the directory of a project. -/
def place (cwd : Location) (name file : String) : Location :=
  (Path.ofString name).goal cwd ++ [file]

/-- Whether a project's directory seems to be missing although there is one where its name leads. -/
def Overlooks (t : Tree) (cwd : Location) (name : String) : Prop :=
  t.node? ((Path.ofString name).goal cwd) = some .directory ∧
    t.isPresent cwd (Path.ofString name) = false

/-- What has come to a tree with some files of a project: directories, in places that the name leads
through where nothing was, and the files, which may be executed only if files that were there in
their place could be. -/
structure Added (t t' : Tree) (cwd : Location) (name : String) (files : List (String × String)) :
    Prop where
  there : ∀ f ∈ files, t'.node? (place cwd name f.1) =
    some (.file ⟨f.2.toUTF8, (t.file? (place cwd name f.1)).any File.executable⟩)
  elsewhere : ∀ l, (∀ f ∈ files, l ≠ place cwd name f.1) → t'.node? l = t.node? l ∨
    l ∈ (Path.ofString name).stops cwd ∧ t.node? l = none ∧ t'.node? l = some .directory

variable {t t' : Tree} {cwd : Location} {name : String} {files : List (String × String)}

/-! ## Names of files -/

/-- Whether a text is the name of a file: no slash is in it, and it is neither empty nor dots. -/
def IsFileName (file : String) : Prop :=
  (Path.ofString file).absolute = false ∧ (Path.ofString file).parts = [file] ∧
    Path.stepOf? file = some (.name file)

instance (file : String) : Decidable (IsFileName file) :=
  inferInstanceAs (Decidable (_ ∧ _ ∧ _))

theorem IsFileName.steps_join {file : String} (h : IsFileName file) (name : String) :
    (Path.ofString (Path.join name file)).steps = (Path.ofString name).steps ++ [.name file] := by
  rw [Path.steps_join h.1, Path.steps, Path.steps, h.2.1, List.filterMap_cons_some h.2.2,
    List.filterMap_nil]

theorem IsFileName.start_join {file : String} (h : IsFileName file) (name : String)
    (cwd : Location) :
    (Path.ofString (Path.join name file)).start cwd = (Path.ofString name).start cwd := by
  rw [Path.start, Path.start, Path.absolute_join h.1]

/-- The path of a file does not end in a slash. -/
theorem IsFileName.trailingSlash_join {file : String} (h : IsFileName file) (name : String) :
    (Path.ofString (Path.join name file)).trailingSlash = false := by
  obtain ⟨before, hparts, -⟩ := Path.exists_parts_join name h.1
  have hne : file ≠ "" := by
    rintro rfl
    exact absurd h.2.2 (Option.some_ne_none _).symm
  rw [Path.trailingSlash, hparts, h.2.1, List.getLast?_concat]
  simp [hne]

/-- The file of a project is written to its place. -/
theorem IsFileName.goal_join {file : String} (h : IsFileName file) (name : String)
    (cwd : Location) : (Path.ofString (Path.join name file)).goal cwd = place cwd name file := by
  rw [Path.goal, h.start_join, h.steps_join, List.foldl_append]
  rfl

/-- The files of a project have names, and each another one. -/
theorem isFileName_newFiles (name : String) : ∀ f ∈ newFiles name, IsFileName f.1 := by
  have hnames : IsFileName manifestFile ∧ IsFileName ".gitignore" := by
    decide
  simpa [newFiles] using hnames

theorem nodup_newFiles (name : String) : ((newFiles name).map Prod.fst).Nodup := by
  simp [newFiles, manifestFile]

/-! ## Writing the files -/

/-- A file of a project that is written is added. -/
theorem added_writeFile {file : String} (hfile : IsFileName file) {content : ByteArray}
    (h : t.writeFile cwd (Path.ofString (Path.join name file)) content = .ok t') :
    t' = t.put (place cwd name file)
      (.file ⟨content, (t.file? (place cwd name file)).any File.executable⟩) := by
  obtain ⟨m, n, hgoal, -, -, rfl⟩ := exists_of_writeFile h
  rw [hfile.goal_join] at hgoal
  rw [hgoal]

theorem place_inj {file file' : String} : place cwd name file = place cwd name file' ↔ file = file' := by
  simp [place]

theorem Added.nil (t : Tree) (cwd : Location) (name : String) : Added t t cwd name [] :=
  ⟨nofun, fun _ _ => .inl rfl⟩

/-- What is added to a tree with a first file in it is added together with it. -/
theorem Added.cons {file content : String}
    (h : Added (t.put (place cwd name file)
      (.file ⟨content.toUTF8, (t.file? (place cwd name file)).any File.executable⟩)) t' cwd name files)
    (hnew : ∀ f ∈ files, file ≠ f.1) : Added t t' cwd name ((file, content) :: files) := by
  have hfirst : t'.node? (place cwd name file) =
      some (.file ⟨content.toUTF8, (t.file? (place cwd name file)).any File.executable⟩) := by
    have hput := node?_put_self t (l := place cwd name file) (by simp [place])
      (.file ⟨content.toUTF8, (t.file? (place cwd name file)).any File.executable⟩)
    rcases h.elsewhere (place cwd name file) fun f hf heq => hnew f hf (place_inj.1 heq) with
      heq | ⟨-, hnone, -⟩
    · rw [heq, hput]
    · rw [hput] at hnone
      cases hnone
  refine ⟨List.forall_mem_cons.2 ⟨hfirst, fun f hf => ?_⟩, fun l hl => ?_⟩
  · have hother : place cwd name f.1 ≠ place cwd name file := fun heq =>
      hnew f hf (place_inj.1 heq).symm
    rw [h.there f hf, file?_put_of_ne t hother]
  · obtain ⟨hl, hrest⟩ := List.forall_mem_cons.1 hl
    have hl' := h.elsewhere l hrest
    rwa [node?_put_of_ne t hl] at hl'

/-- What is added once some directories have been made is added together with them. -/
theorem Added.of_grown {t₁ : Tree} (hgrown : Grown (· ∈ (Path.ofString name).stops cwd) t t₁)
    (h : Added t₁ t' cwd name files) : Added t t' cwd name files := by
  refine ⟨fun f hf => ?_, fun l hl => ?_⟩
  · rw [h.there f hf, hgrown.file?_eq]
  · rcases h.elsewhere l hl with heq | ⟨hplace, hnone, hnew⟩
    · rw [heq]
      exact hgrown.node l
    · refine .inr ⟨hplace, ?_, hnew⟩
      by_contra hsome
      exact hsome ((hgrown.kept hsome).symm.trans hnone)

/-- Files are added to a directory one after the other, up to the first one that cannot be
written. -/
theorem added_writeFiles (cwd : Location) (name : String)
    (hnames : ∀ f ∈ files, IsFileName f.1) (hdistinct : (files.map Prod.fst).Nodup) (t : Tree) :
    ∃ done rest, files = done ++ rest ∧
      Added t (writeFiles cwd name files t).2 cwd name done ∧
      ((writeFiles cwd name files t).1 = .ok () ∧ rest = [] ∨ ∃ f later cause,
        rest = f :: later ∧ (writeFiles cwd name files t).1 = .error (.file f.1 cause)) := by
  induction files generalizing t with
  | nil => exact ⟨[], [], rfl, .nil t cwd name, .inl ⟨rfl, rfl⟩⟩
  | cons f files ih =>
    obtain ⟨file, content⟩ := f
    obtain ⟨hfile, hnames⟩ := List.forall_mem_cons.1 hnames
    obtain ⟨hnew, hdistinct⟩ := List.nodup_cons.1 hdistinct
    unfold writeFiles
    dsimp only
    split
    · next e h => exact ⟨[], _, rfl, .nil t cwd name, .inr ⟨_, _, e, rfl, rfl⟩⟩
    · next t₁ h =>
      obtain rfl := added_writeFile hfile h
      obtain ⟨done, rest, rfl, hadded, hend⟩ := ih hnames hdistinct _
      refine ⟨(file, content) :: done, rest, rfl, hadded.cons fun f hf heq => ?_, hend⟩
      exact hnew (List.mem_map.2 ⟨f, List.mem_append_left _ hf, heq.symm⟩)

/-- In a directory that the name leads to, files can be written where no directories are. -/
theorem writeFiles_eq_ok (hnames : ∀ f ∈ files, IsFileName f.1)
    (hdistinct : (files.map Prod.fst).Nodup)
    (hfits : ∀ f ∈ files, (Path.ofString (Path.join name f.1)).Fits)
    (hreached : t.walk ((Path.ofString name).start cwd) (Path.ofString name).steps =
      .ok ((Path.ofString name).goal cwd))
    (hdirectory : t.node? ((Path.ofString name).goal cwd) = some .directory)
    (hfree : ∀ f ∈ files, t.node? (place cwd name f.1) ≠ some .directory) :
    (writeFiles cwd name files t).1 = .ok () := by
  induction files generalizing t with
  | nil => rfl
  | cons f files ih =>
    obtain ⟨file, content⟩ := f
    obtain ⟨hfile, hnames⟩ := List.forall_mem_cons.1 hnames
    obtain ⟨hnew, hdistinct⟩ := List.nodup_cons.1 hdistinct
    obtain ⟨hfit, hfits⟩ := List.forall_mem_cons.1 hfits
    obtain ⟨hplace, hfree⟩ := List.forall_mem_cons.1 hfree
    have hsteps := hfile.steps_join name
    have hshort := hfit.short_of_steps hsteps (.head _)
    have hfollow : t.follow cwd (Path.ofString (Path.join name file)) =
        .ok (place cwd name file) := by
      rw [follow_eq hfit (by simp [hsteps]), hsteps, hfile.start_join, walk_append hreached,
        walk_cons hdirectory fun n hn => Step.name.inj hn ▸ hshort]
      rfl
    have hlast : (Path.ofString (Path.join name file)).steps.getLast? = some (.name file) := by
      rw [hsteps, List.getLast?_concat]
    have hwrite := writeFile_eq hfollow hlast (hfile.trailingSlash_join name) hplace content.toUTF8
    unfold writeFiles
    simp only [hwrite]
    have hkept := fun l (hl : t.node? l = some .directory) => directory_put hplace hl
      (.file ⟨content.toUTF8, (t.file? (place cwd name file)).any File.executable⟩)
    refine ih hnames hdistinct hfits (walk_of_directories hkept hreached) (hkept _ hdirectory) ?_
    intro f hf
    have hother : place cwd name f.1 ≠ place cwd name file := fun heq =>
      hnew (List.mem_map.2 ⟨f, hf, place_inj.1 heq⟩)
    rw [node?_put_of_ne t hother]
    exact hfree f hf

/-! ## Making a project -/

/-- A project is refused where its name leads to something already, or its directory cannot be made,
or its files are written once it has been made. -/
theorem init_cases (t : Tree) (cwd : Location) (name : String) :
    t.isPresent cwd (Path.ofString name) = true ∧
        init t cwd name = (.error (.alreadyExists name), t) ∨
      t.isPresent cwd (Path.ofString name) = false ∧
        ((∃ e t₁, t.makeDirectories cwd (Path.ofString name) = (.error e, t₁) ∧
            init t cwd name = (.error (.directory e), t₁)) ∨
          ∃ t₁, t.makeDirectories cwd (Path.ofString name) = (.ok (), t₁) ∧
            init t cwd name = writeFiles cwd name (newFiles name) t₁) := by
  unfold init
  dsimp only
  cases t.isPresent cwd (Path.ofString name) with
  | true => exact .inl ⟨rfl, rfl⟩
  | false =>
    refine .inr ⟨rfl, ?_⟩
    split
    · next h => cases h
    · split
      · next e t₁ hmake => exact .inl ⟨e, t₁, hmake, rfl⟩
      · next t₁ hmake => exact .inr ⟨t₁, hmake, rfl⟩

/-- A directory that a name goes down to is not overlooked. -/
theorem not_overlooks_of_descends (hclosed : t.Closed)
    (hdescends : t.Descends cwd (Path.ofString name)) (hfits : (Path.ofString name).Fits) :
    ¬ Overlooks t cwd name := by
  rintro ⟨hgoal, hmissing⟩
  obtain ⟨base, fixed, rest, n, hsteps, hreached, hbase, hup⟩ := hdescends
  have hdown : .up ∉ rest ++ [Step.name n] := by simp [hup]
  have hplace : (Path.ofString name).goal cwd =
      base ++ (rest ++ [Step.name n]).filterMap Step.name? := by
    rw [Path.goal, hsteps, List.foldl_append, ← eq_of_walk hreached]
    exact Path.foldl_arrive hdown base
  rw [hplace] at hgoal
  have hfollow : t.follow cwd (Path.ofString name) =
      .ok (base ++ (rest ++ [Step.name n]).filterMap Step.name?) := by
    rw [follow_eq hfits (by simp [hsteps]), hsteps, walk_append hreached]
    exact walk_names hdown (fun m hm => hfits.short_of_steps hsteps hm)
      (Made.of_directory hclosed hgoal).made
  rw [isPresent, stat_of_directory hfollow hgoal] at hmissing
  cases hmissing

/-- Nothing is in the directory of a project that is made, unless the directory is overlooked. -/
theorem node?_place_of_missing (hclosed : t.Closed) (hfound : ¬ Overlooks t cwd name)
    (hmissing : t.isPresent cwd (Path.ofString name) = false) (file : String) :
    t.node? (place cwd name file) = none := by
  by_contra hsome
  exact hfound ⟨hclosed _ file hsome, hmissing⟩

/-- What was there is as it was if nothing was in the places of the files that have been added. -/
theorem Added.kept (h : Added t t' cwd name files)
    (hempty : ∀ f ∈ files, t.node? (place cwd name f.1) = none) {l : Location}
    (hl : t.node? l ≠ none) : t'.node? l = t.node? l := by
  have hother : ∀ f ∈ files, l ≠ place cwd name f.1 := by
    rintro f hf rfl
    exact hl (hempty f hf)
  exact (h.elsewhere l hother).resolve_right fun hnew => hl hnew.2.1

/-- Making a project adds files of it up to the first one that cannot be written. -/
theorem added_init (t : Tree) (cwd : Location) (name : String) :
    ∃ done rest, newFiles name = done ++ rest ∧ Added t (init t cwd name).2 cwd name done ∧
      (done ≠ [] → t.isPresent cwd (Path.ofString name) = false) ∧
      ((init t cwd name).1 = .ok () ↔ rest = []) := by
  have hgrown := grown_makeDirectories t cwd (Path.ofString name)
  rcases init_cases t cwd name with ⟨-, h⟩ | ⟨hmissing, ⟨e, t₁, hmake, h⟩ | ⟨t₁, hmake, h⟩⟩
  · rw [h]
    exact ⟨[], _, rfl, .nil t cwd name, nofun, by simp⟩
  · rw [hmake] at hgrown
    rw [h]
    exact ⟨[], _, rfl, (Added.nil t₁ cwd name).of_grown hgrown, nofun, by simp⟩
  · rw [hmake] at hgrown
    rw [h]
    obtain ⟨done, rest, hfiles, hadded, hend⟩ :=
      added_writeFiles cwd name (isFileName_newFiles name) (nodup_newFiles name) t₁
    refine ⟨done, rest, hfiles, hadded.of_grown hgrown, fun _ => hmissing, ?_⟩
    rcases hend with ⟨hok, hrest⟩ | ⟨f, later, cause, hrest, herror⟩
    · exact iff_of_true hok hrest
    · rw [herror, hrest]
      exact iff_of_false nofun nofun

/-- A project whose name goes down to a directory is made, or the tree is as it was. -/
theorem init_of_descends (hclosed : t.Closed) (hdescends : t.Descends cwd (Path.ofString name))
    (hfits : ∀ f ∈ newFiles name, (Path.ofString (Path.join name f.1)).Fits)
    (hfound : ¬ Overlooks t cwd name) (hname : (Path.ofString name).Fits) :
    (init t cwd name).1 = .ok () ∨ (init t cwd name).2 = t := by
  rcases init_cases t cwd name with ⟨-, h⟩ | ⟨hmissing, ⟨e, t₁, hmake, h⟩ | ⟨t₁, hmake, h⟩⟩
  · exact .inr (by rw [h])
  · rcases hdescends.makeDirectories_cases hclosed hname with ⟨e', hnone⟩ | ⟨t', _, _, hall, -⟩
    · rw [hmake] at hnone
      obtain ⟨-, rfl⟩ := Prod.mk.inj hnone
      exact .inr (by rw [h])
    · rw [hmake] at hall
      cases hall
  · rcases hdescends.makeDirectories_cases hclosed hname with
      ⟨e', hnone⟩ | ⟨t', base, names, hall, hmade, hgoal, hreached⟩
    · rw [hmake] at hnone
      cases hnone
    · rw [hmake] at hall
      obtain ⟨-, rfl⟩ := Prod.mk.inj hall
      refine .inl ?_
      rw [h]
      refine writeFiles_eq_ok (isFileName_newFiles name) (nodup_newFiles name) hfits hreached ?_ ?_
      · rw [hgoal]
        exact hmade.made names (List.prefix_refl _)
      · intro f _
        have hnone := node?_place_of_missing hclosed hfound hmissing f.1
        rw [place, hgoal] at hnone ⊢
        rw [hmade.node?_last, hnone]
        nofun

end ReactorDeploy.Project

namespace ReactorDeploy.Command

open Files (Location Path Step Node File FileError Tree)
open Files.Tree
open Project

variable {t : Tree}

/-- The command leaves the tree that making the project leaves, and says whether that worked. -/
theorem run_init (t : Tree) (cwd : Location) (name : String) :
    ((Action.init name).run t cwd).tree = (Project.init t cwd name).2 ∧
      (((Action.init name).run t cwd).exitCode = 0 ↔ (Project.init t cwd name).1 = .ok ()) := by
  have hrun : (Action.init name).run t cwd = runInit t cwd name := rfl
  rw [hrun, runInit]
  split
  · next e t' h => simp [h, Outcome.failure]
  · next t' h => simp [h, Outcome.success]

/-- A new project adds all of its files, if the command succeeds, and otherwise at most the first
ones; and nothing else but directories on the way. Unless its directory is overlooked, its files are
new and nothing that was there is changed. With a name that goes down to a name, nothing is
overlooked, and a command that fails leaves the tree as it was. -/
theorem init_adds_only (hclosed : t.Closed) (cwd : Location) (name : String) :
    ∃ done rest, newFiles name = done ++ rest ∧
      Added t ((Action.init name).run t cwd).tree cwd name done ∧
      (((Action.init name).run t cwd).exitCode = 0 ↔ rest = []) ∧
      (¬ Overlooks t cwd name → (∀ f ∈ done, t.node? (place cwd name f.1) = none) ∧
        ∀ l, t.node? l ≠ none → ((Action.init name).run t cwd).tree.node? l = t.node? l) ∧
      (t.Descends cwd (Path.ofString name) →
        (∀ f ∈ newFiles name, (Path.ofString (Path.join name f.1)).Fits) →
        ¬ Overlooks t cwd name ∧ (((Action.init name).run t cwd).exitCode = 0 ∨
          ((Action.init name).run t cwd).tree = t)) := by
  obtain ⟨htree, hcode⟩ := run_init t cwd name
  obtain ⟨done, rest, hfiles, hadded, hmissing, hend⟩ := added_init t cwd name
  rw [htree, hcode]
  refine ⟨done, rest, hfiles, hadded, hend, fun hfound => ?_, fun hdescends hfits => ?_⟩
  · have hempty : ∀ f ∈ done, t.node? (place cwd name f.1) = none := fun f hf =>
      node?_place_of_missing hclosed hfound (hmissing (List.ne_nil_of_mem hf)) f.1
    exact ⟨hempty, fun l => hadded.kept hempty⟩
  · have hname : (Path.ofString name).Fits :=
      .of_join (isFileName_newFiles name _ (.head _)).1 (hfits _ (.head _))
    have hfound := not_overlooks_of_descends hclosed hdescends hname
    exact ⟨hfound, init_of_descends hclosed hdescends hfits hfound hname⟩

/-- The tree of a project: a directory with a manifest in it. -/
def projectTree : Tree :=
  ⟨[([manifestFile], .file { content := "keep".toUTF8 })]⟩

theorem closed_projectTree : projectTree.Closed := by
  refine closed_of_entries ?_
  simp [projectTree, node?]

/-- A project in a new directory leaves the manifest that is there as it is. -/
theorem init_beside_manifest :
    ((Action.init "blink").run projectTree []).exitCode = 0 ∧
      ((Action.init "blink").run projectTree []).tree.node? [manifestFile] =
        projectTree.node? [manifestFile] := by
  have hfits : ∀ f ∈ newFiles "blink", (Path.ofString (Path.join "blink" f.1)).Fits := by
    have hall : ∀ file ∈ [manifestFile, ".gitignore"],
        (Path.ofString (Path.join "blink" file)).Fits := by
      decide
    exact fun f hf => hall f.1 (List.mem_map_of_mem (f := Prod.fst) hf)
  obtain ⟨done, rest, -, -, -, hnew, hdown⟩ := init_adds_only closed_projectTree [] "blink"
  obtain ⟨hfound, -⟩ := hdown ⟨[], [], [], "blink", rfl, rfl, rfl, nofun⟩ hfits
  have hdone : (Project.init projectTree [] "blink").1 = .ok () := by
    decide +kernel
  exact ⟨(run_init projectTree [] "blink").2.2 hdone, (hnew hfound).2 _ nofun⟩

/-- With an empty name the directory is overlooked, and the manifest that is there is lost. -/
theorem init_replaces_manifest :
    ((Action.init "").run projectTree []).exitCode = 0 ∧
      projectTree.node? [manifestFile] ≠ none ∧
      ((Action.init "").run projectTree []).tree.node? [manifestFile] ≠
        projectTree.node? [manifestFile] := by
  have hdone : (Project.init projectTree [] "").1 = .ok () := by
    decide
  obtain ⟨htree, hcode⟩ := run_init projectTree [] ""
  obtain ⟨done, rest, hfiles, hadded, -, hend⟩ := added_init projectTree [] ""
  rw [hend.1 hdone, List.append_nil] at hfiles
  have hthere := hadded.there (manifestFile, template "") (hfiles ▸ .head _)
  have hplace : place [] "" manifestFile = [manifestFile] := rfl
  rw [hplace] at hthere
  refine ⟨hcode.2 hdone, nofun, fun heq => ?_⟩
  rw [htree, hthere] at heq
  have hcontent := congrArg File.content (Node.file.inj (Option.some.inj heq))
  have htext : template "" = "keep" := String.toByteArray_inj.1 hcontent
  exact absurd htext (by decide)

end ReactorDeploy.Command
