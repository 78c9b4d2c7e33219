import ReactorDeploy.Proofs.Files.Writing

/-!
# Artifacts that can all be written

An artifact can be written below a directory if no file stands on its way and no directory at its
place (`exists_write`). Artifacts none of whose paths meet are never in each other's way, so they
can be written into an empty directory one after the other, and then all of them are there
(`exists_writeAll`).
-/

namespace ReactorDeploy

open Files (Location Path Step Node File FileError Tree)

namespace Files

namespace Tree

variable {t t' : Tree}

/-- A tree with a file written below a location, directories on the way to it, and otherwise as it
was. -/
structure Written (t t' : Tree) (root : Location) (names : List String) (n : String) (f : File) :
    Prop where
  closed : t'.Closed
  written : t'.node? (root ++ names ++ [n]) = some (.file f)
  made : ∀ q, q <+: names → t'.node? (root ++ q) = some .directory
  kept : ∀ l, (∀ q, q <+: names ++ [n] → l ≠ root ++ q) → t'.node? l = t.node? l

/-- A file is put where the directories above it have been made. -/
theorem Made.written {root : Location} {names : List String} (hmade : Made t t' root names)
    {n : String} (hn : t'.node? (root ++ names ++ [n]) ≠ some .directory) (f : File) :
    Written t (t'.put (root ++ names ++ [n]) (.file f)) root names n f where
  closed := hmade.closed.put (hmade.made names (List.prefix_refl names)) hn _
  written := node?_put_self t' (by simp) _
  made q hq := by
    rw [node?_put_of_ne t' (append_ne_of_along hq n), hmade.made q hq]
  kept l hl := by
    have hgoal : l ≠ root ++ names ++ [n] := by
      rw [List.append_assoc]
      exact hl _ (List.prefix_refl _)
    rw [node?_put_of_ne t' hgoal]
    exact hmade.kept l fun q hq => hl q (hq.trans (List.prefix_append _ _))

/-- What is not on the way to the file is as it was. -/
theorem Written.kept_below {root : Location} {names : List String} {n : String} {f : File}
    (h : Written t t' root names n f) {q : List String} (hq : ¬ q <+: names ++ [n]) :
    t'.node? (root ++ q) = t.node? (root ++ q) := by
  refine h.kept _ fun q' hq' heq => hq ?_
  rwa [List.append_cancel_left heq]

/-- Directories stay directories where the file takes the place of none. -/
theorem Written.directory {root : Location} {names : List String} {n : String} {f : File}
    (h : Written t t' root names n f) (hgoal : t.node? (root ++ (names ++ [n])) ≠ some .directory)
    {l : Location} (hl : t.node? l = some .directory) : t'.node? l = some .directory := by
  by_cases halong : ∃ q, q <+: names ++ [n] ∧ l = root ++ q
  · obtain ⟨q, hq, rfl⟩ := halong
    rcases List.prefix_concat_iff.1 hq with rfl | hq
    · exact absurd hl hgoal
    · exact h.made q hq
  · rw [h.kept l fun q hq heq => halong ⟨q, hq, heq⟩, hl]

/-- What is put at a location twice is what is put there last. -/
theorem put_put (t : Tree) (l : Location) (node node' : Node) :
    (t.put l node).put l node' = t.put l node' := by
  have hentries : ∀ entries : List (Location × Node),
      putEntry l node' (putEntry l node entries) = putEntry l node' entries := by
    intro entries
    induction entries with
    | nil => exact if_pos rfl
    | cons entry entries ih =>
      obtain ⟨k, old⟩ := entry
      simp only [putEntry]
      split
      · exact if_pos rfl
      · next hk => rw [putEntry, if_neg hk, ih]
  exact congrArg Tree.mk (hentries t.entries)

/-- Directories stay where something is put that is not in the place of one. -/
theorem directory_put {k l : Location} (hk : t.node? k ≠ some .directory)
    (hl : t.node? l = some .directory) (node : Node) :
    (t.put k node).node? l = some .directory := by
  rw [node?_put_of_ne t, hl]
  rintro rfl
  exact hk hl

/-- A path that can be followed still can where no directory has gone. -/
theorem follow_of_directories {cwd l : Location} {p : Path}
    (hkept : ∀ l, t.node? l = some .directory → t'.node? l = some .directory)
    (hfits : p.Fits) (hne : p.steps ≠ []) (h : t.follow cwd p = .ok l) :
    t'.follow cwd p = .ok l := by
  rw [follow_eq hfits hne] at h ⊢
  exact walk_of_directories hkept h

/-- A file is written where no directory stands, and keeps the permission that it has. -/
theorem writeFile_eq {cwd l : Location} {p : Path} (hfollow : t.follow cwd p = .ok l) {n : String}
    (hlast : p.steps.getLast? = some (.name n)) (htrailing : p.trailingSlash = false)
    (hl : t.node? l ≠ some .directory) (content : ByteArray) :
    t.writeFile cwd p content =
      .ok (t.put l (.file ⟨content, (t.file? l).any File.executable⟩)) := by
  unfold writeFile file?
  rw [hfollow]
  dsimp only [bind, Except.bind]
  rw [hlast, htrailing]
  cases hnode : t.node? l with
  | none => rfl
  | some node =>
    cases node with
    | directory => exact absurd hnode hl
    | file f => rfl

/-- A file that is there can be permitted to be executed. -/
theorem allowExecution_eq {cwd l : Location} {p : Path} (hfollow : t.follow cwd p = .ok l)
    (htrailing : p.trailingSlash = false) {f : File} (hl : t.node? l = some (.file f)) :
    t.allowExecution cwd p = .ok (t.put l (.file { f with executable := true })) := by
  rw [allowExecution, stat_of_file hfollow hl htrailing]
  rfl

end Tree

end Files

open Files.Tree

/-- The file that an artifact becomes where there may be one already. -/
def Artifact.fileOver (a : Artifact) (old : Option File) : File where
  content := a.content.toUTF8
  executable := a.executable || old.any File.executable

/-- Once the directories above are there, an artifact is written to where its path leads. -/
theorem Artifact.write_eq {t t' : Tree} {cwd l : Location} {path : String}
    (hparents : t.makeParents cwd (Path.ofString path) = (.ok (), t'))
    (hfollow : t'.follow cwd (Path.ofString path) = .ok l) (hfits : (Path.ofString path).Fits)
    {n : String} (hlast : (Path.ofString path).steps.getLast? = some (.name n))
    (htrailing : (Path.ofString path).trailingSlash = false)
    (hl : t'.node? l ≠ some .directory) (a : Artifact) :
    a.write t cwd path = (.ok (), t'.put l (.file (a.fileOver (t'.file? l)))) := by
  let f : File := ⟨a.content.toUTF8, (t'.file? l).any File.executable⟩
  have hwrite : t'.writeFile cwd (Path.ofString path) a.content.toUTF8 = .ok (t'.put l (.file f)) :=
    writeFile_eq hfollow hlast htrailing hl _
  unfold write
  simp only [hparents, hwrite]
  cases hexecutable : a.executable with
  | false =>
    rw [if_neg nofun, fileOver, hexecutable]
    rfl
  | true =>
    have hne : (Path.ofString path).steps ≠ [] := fun hnil => by
      rw [hnil] at hlast
      cases hlast
    have hfollow' : (t'.put l (.file f)).follow cwd (Path.ofString path) = .ok l :=
      follow_of_directories (fun k hk => directory_put hl hk _) hfits hne hfollow
    have hroot : l ≠ [] := by
      rintro rfl
      exact hl rfl
    have hfile := node?_put_self t' hroot (.file f)
    rw [if_pos rfl, allowExecution_eq hfollow' htrailing hfile, put_put, fileOver, hexecutable]
    rfl

/-- An artifact can be written where no file stands on its way and no directory at its place. -/
theorem Artifact.exists_write {t : Tree} (hclosed : t.Closed) {cwd root : Location} {path : String}
    {before : List String} {n : String} {fixed rest : List Step}
    (hparts : (Path.ofString path).parts = before ++ [n])
    (hn : Path.stepOf? n = some (.name n))
    (hsteps : before.filterMap Path.stepOf? = fixed ++ rest)
    (hway : Way t ((Path.ofString path).start cwd) root fixed rest)
    (hfits : (Path.ofString path).Fits)
    (hgoal : t.node? (root ++ rest.filterMap Step.name? ++ [n]) ≠ some .directory)
    (a : Artifact) :
    ∃ t', a.write t cwd path = (.ok (), t') ∧
      Written t t' root (rest.filterMap Step.name?) n
        (a.fileOver (t.file? (root ++ rest.filterMap Step.name? ++ [n]))) := by
  obtain ⟨t₁, hparents, hmade⟩ := exists_makeParents hclosed hparts hn nofun hsteps hway hfits
  have hp : (Path.ofString path).steps = fixed ++ (rest ++ [.name n]) := by
    rw [Path.steps, hparts, List.filterMap_append, hsteps, List.filterMap_cons_some hn,
      List.filterMap_nil, List.append_assoc]
  have hlast : (Path.ofString path).steps.getLast? = some (.name n) := by
    rw [hp, ← List.append_assoc, List.getLast?_concat]
  have htrailing : (Path.ofString path).trailingSlash = false := by
    have hpart : n ≠ "" := by
      rintro rfl
      cases hn
    rw [Path.trailingSlash, hparts, List.getLast?_concat]
    simp [hpart]
  have hfollow := hmade.follow hway hp hfits
  have hnode := hmade.node?_last n
  have hfile : t₁.file? (root ++ rest.filterMap Step.name? ++ [n]) =
      t.file? (root ++ rest.filterMap Step.name? ++ [n]) := by
    rw [file?, file?, hnode]
  rw [← hnode] at hgoal
  rw [← hfile]
  exact ⟨_, write_eq hparents hfollow hfits hlast htrailing hgoal a, hmade.written hgoal _⟩

/-! ## One after the other -/

/-- The names that lead to an artifact from the directory that it is written to. -/
def Artifact.names (a : Artifact) : List String :=
  (Path.ofString a.path).names

/-- Whether an artifact can be written to a directory: its path is contained, ends in a name, and
is one that an operating system takes, where it is joined to the directory. -/
structure Artifact.Deliverable (root : String) (a : Artifact) : Prop where
  contained : (Path.ofString a.path).isContained = true
  ends : (Path.ofString a.path).EndsInName
  fits : (Path.ofString (Path.join root a.path)).Fits

/-- The path of an artifact that can be written to a directory goes on from that of the directory,
down to its last name. -/
theorem Artifact.Deliverable.exists_parts {root : String} {a : Artifact} (h : a.Deliverable root) :
    ∃ before n steps, (Path.ofString (Path.join root a.path)).parts = before ++ [n] ∧
      Path.stepOf? n = some (.name n) ∧
      before.filterMap Path.stepOf? = (Path.ofString root).steps ++ steps ∧ .up ∉ steps ∧
      a.names = steps.filterMap Step.name? ++ [n] := by
  obtain ⟨hrelative, hup⟩ := Path.isContained_iff.1 h.contained
  obtain ⟨n, hlast, hn⟩ := h.ends
  obtain ⟨before, hparts⟩ := List.getLast?_eq_some_iff.1 hlast
  obtain ⟨above, hjoined, habove⟩ := Path.exists_parts_join root hrelative
  have hsteps : (Path.ofString a.path).steps = before.filterMap Path.stepOf? ++ [.name n] := by
    rw [Path.steps, hparts, List.filterMap_append, List.filterMap_cons_some hn, List.filterMap_nil]
  refine ⟨above ++ before, n, before.filterMap Path.stepOf?, ?_, hn, ?_, fun hmem => hup ?_, ?_⟩
  · rw [hjoined, hparts, List.append_assoc]
  · rw [List.filterMap_append, habove]
  · rw [hsteps]
    exact List.mem_append_left _ hmem
  · rw [names, Path.names, hsteps, List.filterMap_append]
    rfl

/-- A tree in which artifacts have been written to a directory that had nothing in it: it has them
all there, and nothing else but the directories that they need. -/
structure Delivered (t : Tree) (start root : Location) (fixed : List Step)
    (artifacts : List Artifact) : Prop where
  closed : t.Closed
  reached : t.walk start fixed = .ok root
  directory : t.node? root = some .directory
  contained : ∀ a ∈ artifacts, (Path.ofString a.path).isContained = true
  there : ∀ a ∈ artifacts, t.file? (root ++ a.names) = some (a.fileOver none)
  files : ∀ q, t.file? (root ++ q) ≠ none → ∃ a ∈ artifacts, q = a.names
  directories : ∀ q, q ≠ [] → t.node? (root ++ q) = some .directory → ∃ a ∈ artifacts, q <+: a.names

namespace Delivered

variable {t : Tree} {start root : Location} {fixed : List Step} {artifacts : List Artifact}

/-- Nothing has been written to a directory with nothing in it. -/
theorem of_empty (hclosed : t.Closed) (hreached : t.walk start fixed = .ok root)
    (hdirectory : t.node? root = some .directory) (hempty : ∀ n, t.node? (root ++ [n]) = none) :
    Delivered t start root fixed [] := by
  have hbelow : ∀ q, q ≠ [] → t.node? (root ++ q) = none := by
    intro q hq
    by_contra hsome
    obtain ⟨n, q, rfl⟩ := List.exists_cons_of_ne_nil hq
    have hn := hempty n
    by_cases hrest : q = []
    · rw [hrest] at hsome
      exact hsome hn
    · have happend : root ++ n :: q = root ++ [n] ++ q := (List.append_assoc root [n] q).symm
      rw [happend] at hsome
      rw [hclosed.above hrest hsome] at hn
      cases hn
  refine ⟨hclosed, hreached, hdirectory, nofun, nofun, fun q hq => ?_, fun q hq hnode => ?_⟩
  · by_cases hempty : q = []
    · rw [hempty, List.append_nil, file?, hdirectory] at hq
      exact absurd rfl hq
    · rw [file?, hbelow q hempty] at hq
      exact absurd rfl hq
  · rw [hbelow q hq] at hnode
    cases hnode

/-- An artifact that meets none of those written before has neither a file on its way nor a
directory at its place. -/
theorem of_not_meets (h : Delivered t start root fixed artifacts) {b : Artifact}
    (hcontained : (Path.ofString b.path).isContained = true)
    (hmeets : ∀ a ∈ artifacts, ¬ (Path.ofString a.path).Meets (Path.ofString b.path)) {q : List String}
    (hq : q <+: b.names) :
    t.file? (root ++ q) = none ∧ (q = b.names → q ≠ [] → t.node? (root ++ q) ≠ some .directory) := by
  constructor
  · by_contra hfile
    obtain ⟨a, ha, rfl⟩ := h.files q hfile
    exact hmeets a ha (Path.meets_of_names (h.contained a ha) hcontained (.inl hq))
  · rintro rfl hne hnode
    obtain ⟨a, ha, hprefix⟩ := h.directories _ hne hnode
    exact hmeets a ha (Path.meets_of_names (h.contained a ha) hcontained (.inr hprefix))

/-- What is written beside the artifacts that are there becomes one of them. -/
theorem of_written {t' : Tree} (h : Delivered t start root fixed artifacts) {b : Artifact}
    {names : List String} {n : String} (hnames : b.names = names ++ [n])
    (hcontained : (Path.ofString b.path).isContained = true)
    (hmeets : ∀ a ∈ artifacts, ¬ (Path.ofString a.path).Meets (Path.ofString b.path))
    (hwritten : Written t t' root names n (b.fileOver none)) :
    Delivered t' start root fixed (artifacts ++ [b]) := by
  have hfree := fun q => h.of_not_meets hcontained hmeets (q := q)
  have hgoal : t.node? (root ++ (names ++ [n])) ≠ some .directory :=
    (hfree _ (hnames ▸ List.prefix_refl _)).2 hnames.symm (by simp)
  refine ⟨hwritten.closed, ?_, ?_, ?_, ?_, fun q hq => ?_, fun q hq hnode => ?_⟩
  · exact walk_of_directories (fun l hl => hwritten.directory hgoal hl) h.reached
  · exact hwritten.directory hgoal h.directory
  · exact List.forall_mem_append.2 ⟨h.contained, List.forall_mem_singleton.2 hcontained⟩
  · refine List.forall_mem_append.2 ⟨fun a ha => ?_, List.forall_mem_singleton.2 ?_⟩
    · have hapart : ¬ a.names <+: names ++ [n] := fun hprefix => by
        rw [← hnames] at hprefix
        exact hmeets a ha (Path.meets_of_names (h.contained a ha) hcontained (.inl hprefix))
      rw [file?, hwritten.kept_below hapart]
      exact h.there a ha
    · rw [hnames, ← List.append_assoc, file?, hwritten.written]
  · by_cases halong : q <+: names ++ [n]
    · rcases List.prefix_concat_iff.1 halong with rfl | halong
      · exact ⟨b, List.mem_append_right _ (.head _), hnames.symm⟩
      · rw [file?, hwritten.made q halong] at hq
        exact absurd rfl hq
    · rw [file?, hwritten.kept_below halong] at hq
      obtain ⟨a, ha, heq⟩ := h.files q hq
      exact ⟨a, List.mem_append_left _ ha, heq⟩
  · by_cases halong : q <+: names ++ [n]
    · exact ⟨b, List.mem_append_right _ (.head _), hnames ▸ halong⟩
    · rw [hwritten.kept_below halong] at hnode
      obtain ⟨a, ha, hprefix⟩ := h.directories q hq hnode
      exact ⟨a, List.mem_append_left _ ha, hprefix⟩

/-- An artifact that meets none of those written before can be written, too. -/
theorem exists_write {cwd : Location} {directory : String}
    (h : Delivered t ((Path.ofString directory).start cwd) root (Path.ofString directory).steps
      artifacts) {b : Artifact} (hb : b.Deliverable directory)
    (hmeets : ∀ a ∈ artifacts, ¬ (Path.ofString a.path).Meets (Path.ofString b.path)) :
    ∃ t', b.write t cwd (Path.join directory b.path) = (.ok (), t') ∧
      Delivered t' ((Path.ofString directory).start cwd) root (Path.ofString directory).steps
        (artifacts ++ [b]) := by
  obtain ⟨hrelative, -⟩ := Path.isContained_iff.1 hb.contained
  obtain ⟨before, n, steps, hparts, hn, hsteps, hup, hnames⟩ := hb.exists_parts
  have hstart : (Path.ofString (Path.join directory b.path)).start cwd =
      (Path.ofString directory).start cwd := by
    rw [Path.start, Path.start, Path.absolute_join hrelative]
  have hfree := fun q => h.of_not_meets hb.contained hmeets (q := q)
  have hway : Way t ((Path.ofString (Path.join directory b.path)).start cwd) root
      (Path.ofString directory).steps steps := by
    rw [hstart]
    refine ⟨h.reached, h.directory, hup, fun q hq => (hfree q ?_).1⟩
    rw [hnames]
    exact hq.trans (List.prefix_append _ _)
  obtain ⟨hfile, hgoal⟩ := hfree b.names (List.prefix_refl _)
  have hgoal := hgoal rfl (by rw [hnames]; simp)
  rw [hnames, ← List.append_assoc] at hfile hgoal
  obtain ⟨t', hwrite, hwritten⟩ := b.exists_write h.closed hparts hn hsteps hway hb.fits hgoal
  rw [hfile] at hwritten
  exact ⟨t', hwrite, h.of_written hnames hb.contained hmeets hwritten⟩

/-- Artifacts that meet neither each other nor those written before can all be written. -/
theorem exists_writeEach {cwd : Location} {directory : String} {more : List Artifact}
    (h : Delivered t ((Path.ofString directory).start cwd) root (Path.ofString directory).steps
      artifacts) (hmore : ∀ b ∈ more, b.Deliverable directory)
    (hmeets : (artifacts ++ more).Pairwise fun a b =>
      ¬ (Path.ofString a.path).Meets (Path.ofString b.path)) :
    ∃ t', Artifact.writeEach cwd directory more t =
        (.ok (more.map fun b => Path.join directory b.path), t') ∧
      Delivered t' ((Path.ofString directory).start cwd) root (Path.ofString directory).steps
        (artifacts ++ more) := by
  induction more generalizing t artifacts with
  | nil => exact ⟨t, rfl, by rwa [List.append_nil]⟩
  | cons b more ih =>
    obtain ⟨hb, hmore⟩ := List.forall_mem_cons.1 hmore
    obtain ⟨-, -, hcross⟩ := List.pairwise_append.1 hmeets
    obtain ⟨t', hwrite, h'⟩ := h.exists_write hb fun a ha => hcross a ha b (.head _)
    have hrest : artifacts ++ b :: more = artifacts ++ [b] ++ more := by simp
    rw [hrest] at hmeets ⊢
    obtain ⟨t'', hothers, h''⟩ := ih h' hmore hmeets
    refine ⟨t'', ?_, h''⟩
    rw [Artifact.writeEach_of_ok hwrite, hothers]
    rfl

end Delivered

/-- A tree in which everything stands in a directory, and a path leads to a directory with nothing
in it. -/
structure Files.EmptyAt (t : Tree) (cwd : Location) (root : String) : Prop where
  closed : t.Closed
  reached : t.walk ((Path.ofString root).start cwd) (Path.ofString root).steps =
    .ok ((Path.ofString root).goal cwd)
  directory : t.node? ((Path.ofString root).goal cwd) = some .directory
  empty : ∀ n, t.node? ((Path.ofString root).goal cwd ++ [n]) = none

/-- Artifacts that do not meet can all be written into an empty directory, and then each is there
with its own content. -/
theorem ArtifactSet.exists_writeAll {s : ArtifactSet} {t : Tree} {cwd : Location}
    {directory : String} (hempty : Files.EmptyAt t cwd directory)
    (hdeliverable : ∀ a ∈ s.artifacts, a.Deliverable directory)
    (hmeets : s.artifacts.Pairwise fun a b =>
      ¬ (Path.ofString a.path).Meets (Path.ofString b.path)) :
    ∃ t', s.writeAll t cwd directory =
        (.ok (s.artifacts.map fun a => Path.join directory a.path), t') ∧
      ∀ a ∈ s.artifacts, t'.file? ((Path.ofString directory).goal cwd ++ a.names) =
        some ⟨a.content.toUTF8, a.executable⟩ := by
  have hnothing := Delivered.of_empty hempty.closed hempty.reached hempty.directory hempty.empty
  obtain ⟨t', hwrite, hall⟩ := hnothing.exists_writeEach hdeliverable hmeets
  refine ⟨t', hwrite, fun a ha => ?_⟩
  rw [hall.there a ha, Artifact.fileOver, Option.any_none, Bool.or_false]

end ReactorDeploy
