import ReactorDeploy.Proofs.Files.Delivery

/-!
# Where writing stops

An artifact is obstructed if a file stands where its path needs a directory, or a directory stands
at its place. An artifact that is not obstructed can be written (`Ground.exists_write`), and one that
is cannot (`Artifact.exists_error_of_obstructed`). So writing a set stops at the first artifact that
is obstructed in the tree that those before it have left, which are all there
(`ArtifactSet.writeAll_stops_at_obstructed`).
-/

namespace ReactorDeploy

open Files (Location Path Step Node File FileError Tree)

namespace Files

/-- Whether a path is one or more names: it is relative, and no part of it is empty or dots. -/
def Path.IsPlain (p : Path) : Prop :=
  p.absolute = false ∧ ∀ part ∈ p.parts, part ≠ "" ∧ part ≠ "." ∧ part ≠ ".."

instance (p : Path) : Decidable p.IsPlain :=
  inferInstanceAs (Decidable (_ ∧ _))

namespace Path.IsPlain

variable {p q : Path}

theorem stepOf?_eq {part : String} (h : part ≠ "" ∧ part ≠ "." ∧ part ≠ "..") :
    stepOf? part = some (.name part) := by
  simp [stepOf?, h]

theorem filterMap_stepOf? {parts : List String}
    (h : ∀ part ∈ parts, part ≠ "" ∧ part ≠ "." ∧ part ≠ "..") :
    parts.filterMap stepOf? = parts.map .name := by
  induction parts with
  | nil => rfl
  | cons part parts ih =>
    rw [List.forall_mem_cons] at h
    rw [List.filterMap_cons_some (stepOf?_eq h.1), ih h.2, List.map_cons]

theorem filterMap_name? (names : List String) :
    (names.map Step.name).filterMap Step.name? = names := by
  rw [List.filterMap_map]
  exact List.filterMap_some

/-- The steps of a plain path enter its parts. -/
theorem steps_eq (h : p.IsPlain) : p.steps = p.parts.map .name :=
  filterMap_stepOf? h.2

theorem names_eq (h : p.IsPlain) : p.names = p.parts := by
  rw [names, h.steps_eq, filterMap_name?]

theorem isContained (h : p.IsPlain) : p.isContained = true := by
  rw [isContained_iff, h.steps_eq]
  exact ⟨h.1, by simp⟩

/-- Plain paths that enter the same names are the same. -/
theorem eq_of_names (hp : p.IsPlain) (hq : q.IsPlain) (h : p.names = q.names) : p = q := by
  rw [hp.names_eq, hq.names_eq] at h
  obtain ⟨absolute, parts⟩ := p
  obtain ⟨absolute', parts'⟩ := q
  obtain rfl : absolute = false := hp.1
  obtain rfl : absolute' = false := hq.1
  obtain rfl : parts = parts' := h
  rfl

end Path.IsPlain

theorem Path.parts_ofString_ne_nil (s : String) : (Path.ofString s).parts ≠ [] := by
  unfold ofString
  split <;> simp [splitSlashes_ne_nil]

/-- Where files can be put: everything in the tree stands in a directory, and the path of the
directory for them leads to a directory and then on through names where no file stands. -/
structure Ground (t : Tree) (cwd : Location) (directory : String) : Prop where
  closed : t.Closed
  way : ∃ base fixed rest, (Path.ofString directory).steps = fixed ++ rest ∧
    Tree.Way t ((Path.ofString directory).start cwd) base fixed rest

/-- A directory that is there is a ground. -/
theorem Ground.of_directory {t : Tree} {cwd : Location} {directory : String} (hclosed : t.Closed)
    (hreached : t.walk ((Path.ofString directory).start cwd) (Path.ofString directory).steps =
      .ok ((Path.ofString directory).goal cwd))
    (hnode : t.node? ((Path.ofString directory).goal cwd) = some .directory) :
    Ground t cwd directory := by
  refine ⟨hclosed, _, _, [], (List.append_nil _).symm, hreached, hnode, by simp, fun q hq => ?_⟩
  obtain rfl : q = [] := List.prefix_nil.1 hq
  rw [List.append_nil, Tree.file?, hnode]

/-- A way goes on through names where no file stands. -/
theorem Tree.Way.append_names {t : Tree} {start base : Location} {fixed rest : List Step}
    (hway : Tree.Way t start base fixed rest) {names : List String}
    (hfree : ∀ q, q <+: names → t.file? (base ++ rest.filterMap Step.name? ++ q) = none) :
    Tree.Way t start base fixed (rest ++ names.map .name) := by
  refine ⟨hway.reached, hway.directory, ?_, fun q hq => ?_⟩
  · simp [hway.descends]
  · rw [List.filterMap_append, Path.IsPlain.filterMap_name?] at hq
    rcases List.prefix_or_prefix_of_prefix hq (List.prefix_append _ _) with hq | ⟨q', rfl⟩
    · exact hway.free q hq
    · rw [← List.append_assoc]
      exact hfree q' ((List.prefix_append_right_inj _).1 hq)

end Files

open Files (Ground)
open Files.Tree

/-! ## One artifact -/

/-- Whether something is in the way of an artifact that is to be written below a location: a file
stands where a directory of its path is needed, or a directory stands at its place. -/
def Artifact.Obstructed (t : Tree) (root : Location) (a : Artifact) : Prop :=
  (∃ q, q <+: a.names.dropLast ∧ t.file? (root ++ q) ≠ none) ∨
    t.node? (root ++ a.names) = some .directory

/-- Whether an artifact has a path of names, and one that an operating system takes where it is
joined to the directory that it is written to. -/
structure Artifact.Nameable (directory : String) (a : Artifact) : Prop where
  plain : (Path.ofString a.path).IsPlain
  fits : (Path.ofString (Path.join directory a.path)).Fits

variable {t t' : Tree} {cwd : Location} {directory : String} {a : Artifact}

theorem Artifact.Nameable.exists_names (h : a.Nameable directory) :
    ∃ above n, a.names = above ++ [n] ∧ (Path.ofString a.path).parts = above ++ [n] := by
  obtain ⟨above, n, hparts⟩ := (List.eq_nil_or_concat' _).resolve_left
    (Path.parts_ofString_ne_nil a.path)
  exact ⟨above, n, h.plain.names_eq.trans hparts, hparts⟩

/-- A nameable artifact leads below the directory that it is written to, through its names. -/
theorem Artifact.Nameable.goal_eq (h : a.Nameable directory) (cwd : Location) :
    (Path.ofString (Path.join directory a.path)).goal cwd =
      (Path.ofString directory).goal cwd ++ a.names :=
  Path.goal_join h.plain.isContained directory cwd

/-- The steps to a nameable artifact are those to its directory and then its names. -/
theorem Artifact.Nameable.steps_eq (h : a.Nameable directory) :
    (Path.ofString (Path.join directory a.path)).steps =
      (Path.ofString directory).steps ++ a.names.map .name := by
  rw [Path.steps_join h.plain.1, h.plain.steps_eq, Artifact.names, h.plain.names_eq]

/-- An artifact that is not obstructed can be written, and others can be after it. -/
theorem Files.Ground.exists_write (h : Ground t cwd directory) (ha : a.Nameable directory)
    (hfree : ¬ a.Obstructed t ((Path.ofString directory).goal cwd)) :
    ∃ t', a.write t cwd (Path.join directory a.path) = (.ok (), t') ∧ Ground t' cwd directory ∧
      t'.file? ((Path.ofString directory).goal cwd ++ a.names) =
        some (a.fileOver (t.file? ((Path.ofString directory).goal cwd ++ a.names))) := by
  obtain ⟨base, fixed, rest, hsteps, hway⟩ := h.way
  obtain ⟨above, n, hnames, hparts⟩ := ha.exists_names
  rw [hway.goal_eq hsteps] at hfree ⊢
  rw [Artifact.Obstructed, not_or] at hfree
  obtain ⟨hfiles, hgoal⟩ := hfree
  obtain ⟨before, hjoined, hbefore⟩ := Path.exists_parts_join directory ha.plain.1
  have hplain := ha.plain.2
  rw [hparts, List.forall_mem_append] at hplain
  have hn : Path.stepOf? n = some (.name n) := Path.IsPlain.stepOf?_eq (hplain.2 n (.head _))
  -- The names above the artifact are the rest of a way on which directories can be made.
  have hlonger : Way t ((Path.ofString directory).start cwd) base fixed
      (rest ++ above.map .name) := by
    refine hway.append_names fun q hq => ?_
    by_contra hfile
    exact hfiles ⟨q, by rwa [hnames, List.dropLast_concat], hfile⟩
  have hstart : (Path.ofString (Path.join directory a.path)).start cwd =
      (Path.ofString directory).start cwd := by
    rw [Path.start, Path.start, Path.absolute_join ha.plain.1]
  have hplaces : base ++ (rest ++ above.map Step.name).filterMap Step.name? ++ [n] =
      base ++ rest.filterMap Step.name? ++ a.names := by
    rw [List.filterMap_append, Path.IsPlain.filterMap_name?, hnames]
    simp
  have hdirections : (before ++ above).filterMap Path.stepOf? =
      fixed ++ (rest ++ above.map .name) := by
    rw [List.filterMap_append, hbefore, hsteps, Path.IsPlain.filterMap_stepOf? hplain.1,
      List.append_assoc]
  have hwrite := a.exists_write h.closed (by rw [hjoined, hparts, List.append_assoc]) hn
    hdirections (hstart ▸ hlonger) ha.fits (by rwa [hplaces])
  obtain ⟨t', hok, hwritten⟩ := hwrite
  have hlast : base ++ (rest ++ above.map Step.name).filterMap Step.name? ++ [n] =
      base ++ ((rest ++ above.map Step.name).filterMap Step.name? ++ [n]) := List.append_assoc ..
  have hkept : ∀ l, t.node? l = some .directory → t'.node? l = some .directory := fun l hl =>
    hwritten.directory (by rwa [← hlast, hplaces]) hl
  refine ⟨t', hok, ⟨hwritten.closed, base, fixed, rest, hsteps,
    walk_of_directories hkept hway.reached, hkept _ hway.directory, hway.descends, ?_⟩, ?_⟩
  · intro q hq
    rw [file?, hwritten.made q (hq.trans ?_)]
    rw [List.filterMap_append]
    exact List.prefix_append _ _
  · rw [← hplaces, file?, hwritten.written]

/-- A path is followed through directories only. -/
theorem Files.Tree.directory_of_follow {l : Location} {p : Path} (h : t.follow cwd p = .ok l)
    {steps more : List Step} {step : Step} (hp : p.steps = steps ++ step :: more) :
    t.node? (steps.foldl Step.arrive (p.start cwd)) = some .directory := by
  have hwalk := walk_of_follow h
  rw [hp] at hwalk
  obtain ⟨m, hm, hrest⟩ := exists_of_walk_append hwalk
  rw [← eq_of_walk hm]
  exact (of_walk_cons hrest).1

/-- An artifact is not written if its file cannot be written once the directories above it have been
made as far as they can be. Then no file is changed. -/
theorem Artifact.exists_error_of_writeFile {path : String}
    (h : ∀ t', (t.makeParents cwd (Path.ofString path)).2.writeFile cwd (Path.ofString path)
      a.content.toUTF8 ≠ .ok t') :
    (∃ e, (a.write t cwd path).1 = .error e) ∧
      ∀ l, (a.write t cwd path).2.file? l = t.file? l := by
  have hparents := (grown_makeParents t cwd (Path.ofString path)).file?_eq
  unfold write
  dsimp only
  split
  · next e t' hmade =>
    rw [hmade] at hparents
    exact ⟨⟨e, rfl⟩, hparents⟩
  · next t' hmade =>
    rw [hmade] at h hparents
    split
    · next e hwrite => exact ⟨⟨e, rfl⟩, hparents⟩
    · next t'' hwrite => exact absurd hwrite (h t'')

/-- An artifact that is obstructed cannot be written, and no file is changed. -/
theorem Artifact.exists_error_of_obstructed (ha : a.Nameable directory)
    (h : a.Obstructed t ((Path.ofString directory).goal cwd)) :
    (∃ e, (a.write t cwd (Path.join directory a.path)).1 = .error e) ∧
      ∀ l, (a.write t cwd (Path.join directory a.path)).2.file? l = t.file? l := by
  refine exists_error_of_writeFile fun t' hwrite => ?_
  have hgrown := grown_makeParents t cwd (Path.ofString (Path.join directory a.path))
  rcases h with ⟨q, hq, hfile⟩ | hdirectory
  · -- The path leads through the place of the file, which is no directory.
    obtain ⟨above, n, hnames, -⟩ := ha.exists_names
    rw [hnames, List.dropLast_concat] at hq
    obtain ⟨more, rfl⟩ := hq
    obtain ⟨step, steps, hmore⟩ : ∃ step steps, (more ++ [n]).map Step.name = step :: steps :=
      List.exists_cons_of_ne_nil (by simp)
    have hsteps : (Path.ofString (Path.join directory a.path)).steps =
        (Path.ofString directory).steps ++ q.map .name ++ step :: steps := by
      rw [ha.steps_eq, hnames, ← hmore]
      simp
    obtain ⟨l, hfollow, -⟩ := exists_of_bind hwrite
    have hthrough := directory_of_follow hfollow hsteps
    have hplace : ((Path.ofString directory).steps ++ q.map Step.name).foldl Step.arrive
        ((Path.ofString (Path.join directory a.path)).start cwd) =
          (Path.ofString directory).goal cwd ++ q := by
      rw [List.foldl_append, Path.start, Path.absolute_join ha.plain.1]
      refine (Path.foldl_arrive (by simp) _).trans ?_
      rw [Path.IsPlain.filterMap_name?]
      rfl
    rw [hplace] at hthrough
    rw [← hgrown.file?_eq, file?, hthrough] at hfile
    exact hfile rfl
  · obtain ⟨m, n, hgoal, -, hnode, -⟩ := exists_of_writeFile hwrite
    have hkept : t.node? ((Path.ofString directory).goal cwd ++ a.names) ≠ none := by
      rw [hdirectory]
      exact Option.some_ne_none _
    rw [← hgoal, ha.goal_eq, hgrown.kept hkept] at hnode
    exact hnode hdirectory

/-! ## One after the other -/

/-- The tree that writing some artifacts leaves. -/
def Artifact.treeAfter (t : Tree) (cwd : Location) (directory : String)
    (artifacts : List Artifact) : Tree :=
  (Artifact.writeEach cwd directory artifacts t).2

/-- Whether none of some artifacts is obstructed in the tree that those before it leave. -/
def Artifact.Unobstructed (t : Tree) (cwd : Location) (directory : String)
    (artifacts : List Artifact) : Prop :=
  ∀ earlier a later, artifacts = earlier ++ a :: later →
    ¬ a.Obstructed (Artifact.treeAfter t cwd directory earlier) ((Path.ofString directory).goal cwd)

/-- What artifacts make of the files of a tree, when they are written below a location: each of
them is there with its own content, and may be executed if it asks for that or the file that was
there before might be; every other file is as it was. -/
structure Files.Stored (t t' : Tree) (root : Location) (artifacts : List Artifact) : Prop where
  there : ∀ a ∈ artifacts, t'.file? (root ++ a.names) = some (a.fileOver (t.file? (root ++ a.names)))
  kept : ∀ l, (∀ a ∈ artifacts, l ≠ root ++ a.names) → t'.file? l = t.file? l

/-- What is stored behind a first artifact elsewhere is stored together with it. -/
theorem Files.Stored.cons {t'' : Tree} {root : Location} {artifacts : List Artifact}
    (hthere : t'.file? (root ++ a.names) = some (a.fileOver (t.file? (root ++ a.names))))
    (hkept : ∀ l, l ≠ root ++ a.names → t'.file? l = t.file? l)
    (hapart : ∀ b ∈ artifacts, a.names ≠ b.names) (h : Stored t' t'' root artifacts) :
    Stored t t'' root (a :: artifacts) := by
  refine ⟨List.forall_mem_cons.2 ⟨?_, fun b hb => ?_⟩, fun l hl => ?_⟩
  · rw [h.kept _ fun b hb heq => hapart b hb (List.append_cancel_left heq), hthere]
  · have hother : root ++ b.names ≠ root ++ a.names := fun heq =>
      hapart b hb (List.append_cancel_left heq).symm
    rw [h.there b hb, hkept _ hother]
  · rw [List.forall_mem_cons] at hl
    rw [h.kept l hl.2, hkept l hl.1]

theorem Artifact.treeAfter_cons
    (h : a.write t cwd (Path.join directory a.path) = (.ok (), t')) (artifacts : List Artifact) :
    Artifact.treeAfter t cwd directory (a :: artifacts) =
      Artifact.treeAfter t' cwd directory artifacts := by
  rw [treeAfter, Artifact.writeEach_of_ok h, treeAfter]

/-- What is behind an artifact that is written is unobstructed in the tree that is left. -/
theorem Artifact.Unobstructed.tail {artifacts : List Artifact}
    (h : Artifact.Unobstructed t cwd directory (a :: artifacts))
    (hwrite : a.write t cwd (Path.join directory a.path) = (.ok (), t')) :
    Artifact.Unobstructed t' cwd directory artifacts := by
  intro earlier b later hsplit
  rw [← treeAfter_cons hwrite]
  exact h (a :: earlier) b later (by rw [hsplit, List.cons_append])

/-- Artifacts that are not obstructed are all written. -/
theorem Files.Ground.writeEach_of_unobstructed (h : Ground t cwd directory)
    {artifacts : List Artifact} (hnameable : ∀ a ∈ artifacts, a.Nameable directory)
    (hdistinct : (artifacts.map Artifact.names).Nodup)
    (hfree : Artifact.Unobstructed t cwd directory artifacts) :
    ∃ t', Artifact.writeEach cwd directory artifacts t =
        (.ok (artifacts.map fun a => Path.join directory a.path), t') ∧
      Stored t t' ((Path.ofString directory).goal cwd) artifacts := by
  induction artifacts generalizing t with
  | nil => exact ⟨t, rfl, nofun, fun _ _ => rfl⟩
  | cons a artifacts ih =>
    rw [List.forall_mem_cons] at hnameable
    rw [List.map_cons, List.nodup_cons] at hdistinct
    obtain ⟨t', hwrite, hground, hthere⟩ :=
      h.exists_write hnameable.1 (hfree [] a artifacts rfl)
    obtain ⟨t'', hrest, hstored⟩ :=
      ih hground hnameable.2 hdistinct.2 (hfree.tail hwrite)
    refine ⟨t'', ?_, .cons hthere (fun l hl => ?_) (fun b hb heq => ?_) hstored⟩
    · rw [Artifact.writeEach_of_ok hwrite, hrest]
      rfl
    · have hothers := a.file?_write t cwd (Path.join directory a.path) (l := l)
        (by rwa [hnameable.1.goal_eq])
      rwa [hwrite] at hothers
    · exact hdistinct.1 (heq ▸ List.mem_map_of_mem hb)

/-- Writing stops at the first artifact that cannot be written. -/
theorem Artifact.writeEach_append_of_error {t'' : Tree} {earlier : List Artifact}
    {paths : List String} {e : FileError}
    (hearlier : Artifact.writeEach cwd directory earlier t = (.ok paths, t'))
    (h : a.write t' cwd (Path.join directory a.path) = (.error e, t'')) (later : List Artifact) :
    Artifact.writeEach cwd directory (earlier ++ a :: later) t =
      (.error ⟨Path.join directory a.path, e⟩, t'') := by
  induction earlier generalizing t paths with
  | nil =>
    obtain rfl : t = t' := congrArg Prod.snd hearlier
    exact Artifact.writeEach_of_error h later
  | cons b earlier ih =>
    rcases hb : b.write t cwd (Path.join directory b.path) with ⟨e' | _, t₁⟩
    · rw [Artifact.writeEach_of_error hb] at hearlier
      cases hearlier
    · rw [Artifact.writeEach_of_ok hb] at hearlier
      rcases hrest : Artifact.writeEach cwd directory earlier t₁ with ⟨e' | paths', t₂⟩
      · rw [hrest] at hearlier
        cases hearlier
      · rw [hrest] at hearlier
        obtain rfl : t₂ = t' := congrArg Prod.snd hearlier
        rw [List.cons_append, Artifact.writeEach_of_ok hb, ih hrest]
        rfl

/-- **Where writing a set stops.** Take a set of artifacts at different paths of names, and a
directory that is there or can be made. If an artifact is the first one that is obstructed in the
tree that those before it leave, then writing the set fails and names it; those before it are there,
and every other file is as it was. If there is none, all paths are given in order, all artifacts are
there, and every other file is as it was. -/
theorem ArtifactSet.writeAll_stops_at_obstructed {s : ArtifactSet} (hground : Ground t cwd directory)
    (hnameable : ∀ a ∈ s.artifacts, a.Nameable directory)
    (hdistinct : (s.artifacts.map Artifact.path).Nodup) :
    (∀ earlier a later, s.artifacts = earlier ++ a :: later →
      Artifact.Unobstructed t cwd directory earlier →
      a.Obstructed (Artifact.treeAfter t cwd directory earlier)
        ((Path.ofString directory).goal cwd) →
      (∃ cause, (s.writeAll t cwd directory).1 = .error ⟨Path.join directory a.path, cause⟩) ∧
        Files.Stored t (s.writeAll t cwd directory).2 ((Path.ofString directory).goal cwd) earlier) ∧
    (Artifact.Unobstructed t cwd directory s.artifacts →
      (s.writeAll t cwd directory).1 =
          .ok (s.artifacts.map fun a => Path.join directory a.path) ∧
        Files.Stored t (s.writeAll t cwd directory).2 ((Path.ofString directory).goal cwd)
          s.artifacts) := by
  have hnames : (s.artifacts.map Artifact.names).Nodup := by
    refine List.pairwise_map.2 ((List.pairwise_map.1 hdistinct).imp_of_mem ?_)
    intro a b ha hb hapart heq
    have hpaths := (hnameable a ha).plain.eq_of_names (hnameable b hb).plain heq
    refine hapart ?_
    rw [← Path.text_ofString a.path, hpaths, Path.text_ofString]
  constructor
  · intro earlier a later hsplit hfree hobstructed
    rw [hsplit, List.forall_mem_append] at hnameable
    rw [hsplit, List.map_append, List.nodup_append] at hnames
    obtain ⟨t', hearlier, hstored⟩ :=
      hground.writeEach_of_unobstructed hnameable.1 hnames.1 hfree
    rw [Artifact.treeAfter, hearlier] at hobstructed
    obtain ⟨⟨e, he⟩, hkept⟩ :=
      Artifact.exists_error_of_obstructed (hnameable.2 a (.head _)) hobstructed
    have hwrite : s.writeAll t cwd directory = (.error ⟨Path.join directory a.path, e⟩,
        (a.write t' cwd (Path.join directory a.path)).2) := by
      rw [writeAll, hsplit]
      exact Artifact.writeEach_append_of_error hearlier (Prod.ext he rfl) later
    rw [hwrite]
    exact ⟨⟨e, rfl⟩, fun b hb => (hkept _).trans (hstored.there b hb), fun l hl =>
      (hkept l).trans (hstored.kept l hl)⟩
  · intro hfree
    obtain ⟨t', hall, hstored⟩ := hground.writeEach_of_unobstructed hnameable hnames hfree
    rw [writeAll, hall]
    exact ⟨rfl, hstored⟩

/-- Two artifacts, the second of which needs a directory where a file stands. -/
def blockedSet : ArtifactSet :=
  ⟨[{ path := "conf/lf.conf", content := "A" }, { path := "notes/lf.mk", content := "B" }]⟩

/-- A tree with an output directory and that file in it. -/
def notesTree : Tree :=
  ⟨[(["out"], .directory), (["out", "notes"], .file { content := "keep".toUTF8 })]⟩

theorem nameable_blockedSet : ∀ a ∈ blockedSet.artifacts, a.Nameable "/out" := by
  have hplain : ∀ a ∈ blockedSet.artifacts, (Path.ofString a.path).IsPlain := by
    decide
  have hfits : ∀ a ∈ blockedSet.artifacts, (Path.ofString (Path.join "/out" a.path)).Fits := by
    decide
  exact fun a ha => ⟨hplain a ha, hfits a ha⟩

/-- The first artifact is written, and the second one is the first that is obstructed. -/
theorem blocked_set_stops_behind_first :
    (∃ cause, (blockedSet.writeAll notesTree [] "/out").1 = .error ⟨"/out/notes/lf.mk", cause⟩) ∧
      ∃ f, (blockedSet.writeAll notesTree [] "/out").2.file? ["out", "conf", "lf.conf"] = some f ∧
        f.content = "A".toUTF8 := by
  have hclosed : notesTree.Closed := by
    refine closed_of_entries ?_
    simp only [notesTree, List.forall_mem_cons]
    exact ⟨rfl, rfl, nofun⟩
  have hground : Ground notesTree [] "/out" := .of_directory hclosed rfl rfl
  have hfirst : Artifact.Unobstructed notesTree [] "/out"
      [{ path := "conf/lf.conf", content := "A" }] := by
    intro earlier a later hsplit
    obtain ⟨rfl, rfl⟩ : earlier = [] ∧ a = { path := "conf/lf.conf", content := "A" } := by
      cases earlier <;> simp_all
    rintro (⟨q, hq, hfile⟩ | hdirectory)
    · have hnone : ∀ q ∈ List.inits ["conf"], notesTree.file? ("out" :: q) = none := by
        intro q hq
        have hcases : q = [] ∨ q = ["conf"] := by simpa using hq
        rcases hcases with rfl | rfl <;> rfl
      exact hfile (hnone q ((List.mem_inits q _).2 hq))
    · cases hdirectory
  have hblocked : ((Artifact.treeAfter notesTree [] "/out"
      [{ path := "conf/lf.conf", content := "A" }]).file? ["out", "notes"]).isSome = true := by
    decide
  obtain ⟨hstops, -⟩ :=
    ArtifactSet.writeAll_stops_at_obstructed hground nameable_blockedSet (by decide)
  obtain ⟨hcause, hstored⟩ := hstops _ { path := "notes/lf.mk", content := "B" } [] rfl hfirst
    (.inl ⟨["notes"], by decide, Option.isSome_iff_ne_none.1 hblocked⟩)
  exact ⟨hcause, _, hstored.there _ (.head _), rfl⟩

end ReactorDeploy
