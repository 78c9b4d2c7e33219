import ReactorDeploy.Proofs.Command.Generating
import ReactorDeploy.Proofs.Command.Template
import ReactorDeploy.Proofs.Files.Stopping

/-!
# The search for a manifest

A command works on the manifest of the nearest directory that holds one. The search looks into one
directory after the other, from where it starts up to the root at most (`Search`), and asks of each
whether a file is found under the path that a manifest there would have. A file is found there just
if there is one and its path is one that an operating system takes (`hasManifest_iff`): a path of
4096 bytes or more leads nowhere, and neither does one with a name of more than 255 bytes in it.

So the search comes to the nearest directory with a manifest file under a path that is taken, and
the command works on that file or fails (`find_uses_nearest`). A file whose path is too long is
passed over for one that is further up (`find_passes_over_deep_manifest`).
-/

namespace ReactorDeploy

open Files (Location Path Step Node File FileError Tree locationText)

namespace Files

/-! ## The path of a location -/

theorem locationText_concat {l : Location} (hl : l ≠ []) (n : String) :
    locationText (l ++ [n]) = locationText l ++ "/" ++ n := by
  rw [locationText, locationText, String.intercalate_append_of_ne_nil hl (List.cons_ne_nil _ _),
    String.intercalate_singleton]
  simp only [String.append_assoc]

theorem absolute_locationText (l : Location) :
    (Path.ofString (locationText l)).absolute = true := by
  rw [Path.absolute_ofString, locationText, String.toList_append]
  rfl

/-- The path of a location has a slash and the bytes of a name for each name in it. -/
theorem utf8ByteSize_locationText {l : Location} (hl : l ≠ []) :
    (locationText l).utf8ByteSize = (l.map fun n => n.utf8ByteSize + 1).sum := by
  have hslash : "/".utf8ByteSize = 1 := rfl
  induction l using List.reverseRecOn with
  | nil => exact absurd rfl hl
  | append_singleton l n ih =>
    by_cases hempty : l = []
    · subst hempty
      have htext : locationText ([] ++ [n]) = "/" ++ n := by simp [locationText]
      rw [htext, String.utf8ByteSize_append]
      simp [hslash, Nat.add_comm]
    · rw [locationText_concat hempty, String.utf8ByteSize_append, String.utf8ByteSize_append,
        ih hempty, hslash, List.map_append, List.sum_append, List.map_singleton,
        List.sum_singleton]
      omega

end Files

namespace Project

variable {t : Tree} {cwd l : Location} {f : File}

/-- A text without slashes is a name if it is longer than the dots. -/
theorem isFileName_of_notMem {s : String} (hslash : '/' ∉ s.toList) (hlong : 2 < s.utf8ByteSize) :
    IsFileName s := by
  have hhead : s.toList.head? ≠ some '/' := fun h => hslash (List.mem_of_mem_head? h)
  have hother : ∀ d ∈ ["", ".", ".."], s ≠ d := by
    rintro d hd rfl
    have hshort : ∀ d ∈ ["", ".", ".."], d.utf8ByteSize ≤ 2 := by
      decide
    have hle := hshort _ hd
    omega
  refine ⟨?_, ?_, ?_⟩
  · rw [Path.absolute_ofString, beq_eq_false_iff_ne]
    exact hhead
  · rw [Path.parts_ofString_of_ne hhead, Path.splitSlashes_of_notMem hslash, List.map_singleton,
      String.ofList_toList]
  · exact Path.IsPlain.stepOf?_eq ⟨hother _ (by simp), hother _ (by simp), hother _ (by simp)⟩

/-- The path of a location enters the names in it. -/
theorem steps_locationText (hnames : ∀ n ∈ l, IsFileName n) :
    (Path.ofString (locationText l)).steps = l.map .name := by
  induction l using List.reverseRecOn with
  | nil => rfl
  | append_singleton l n ih =>
    have hn := hnames n (List.mem_append_right _ (.head _))
    have hlast : (Path.ofString n).steps = [.name n] := by
      rw [Path.steps, hn.2.1, List.filterMap_cons_some hn.2.2, List.filterMap_nil]
    by_cases hempty : l = []
    · subst hempty
      have htext : locationText ([] ++ [n]) = "" ++ "/" ++ n := by
        simp [locationText]
      rw [htext, Path.steps_append_slash, hlast]
      rfl
    · rw [Files.locationText_concat hempty, Path.steps_append_slash, hlast,
        ih fun m hm => hnames m (List.mem_append_left _ hm), List.map_append]
      rfl

/-! ## Manifest files -/

/-- A file of the manifest's name is in a directory, and its path is one that an operating system
takes. -/
structure Holds (t : Tree) (l : Location) (f : File) : Prop where
  node?_eq : t.node? (l ++ [manifestFile]) = some (.file f)
  fits : (Path.ofString (manifestPath l)).Fits

theorem isFileName_manifestFile : IsFileName manifestFile := by
  decide

/-- The path of the manifest in a directory enters the names of the directory, and then that of the
manifest. -/
theorem steps_manifestPath (hnames : ∀ n ∈ l, IsFileName n) :
    (Path.ofString (manifestPath l)).steps = (l ++ [manifestFile]).map .name := by
  rw [manifestPath, isFileName_manifestFile.steps_join, steps_locationText hnames, List.map_append]
  rfl

theorem start_manifestPath (l : Location) : (Path.ofString (manifestPath l)).start [] = [] := by
  rw [manifestPath, isFileName_manifestFile.start_join, Path.start, Files.absolute_locationText]
  rfl

/-- The path of the manifest in a directory leads to the place of that name in the directory. -/
theorem goal_manifestPath (hnames : ∀ n ∈ l, IsFileName n) :
    (Path.ofString (manifestPath l)).goal [] = l ++ [manifestFile] := by
  rw [Path.goal, start_manifestPath, steps_manifestPath hnames,
    Path.foldl_arrive (by simp), Path.IsPlain.filterMap_name?, List.nil_append]

/-- Where a manifest file is, its path can be followed. -/
theorem Holds.follow_eq (hclosed : t.Closed) (hnames : ∀ n ∈ l, IsFileName n) (h : Holds t l f) :
    t.follow [] (Path.ofString (manifestPath l)) = .ok (l ++ [manifestFile]) := by
  have hsteps := steps_manifestPath hnames
  have hshort : ∀ n, .name n ∈ (l ++ [manifestFile]).map Step.name → n.utf8ByteSize ≤ 255 :=
    fun n hn => h.fits.short_of_steps (hsteps.trans (List.nil_append _).symm) hn
  rw [List.map_append] at hsteps hshort
  have hdirectory : t.node? l = some .directory :=
    hclosed l manifestFile (by rw [h.node?_eq]; exact Option.some_ne_none _)
  have hmade : Files.Tree.Made t t [] l := .of_directory hclosed hdirectory
  have hreached : t.walk [] (l.map .name) = .ok ([] ++ (l.map .name).filterMap Step.name?) :=
    Files.Tree.walk_names (by simp) (fun n hn => hshort n (List.mem_append_left _ hn))
      (by rw [Path.IsPlain.filterMap_name?]; exact hmade.made)
  rw [Path.IsPlain.filterMap_name?, List.nil_append] at hreached
  rw [Files.Tree.follow_eq h.fits (by simp [hsteps]), hsteps, start_manifestPath,
    Files.Tree.walk_append hreached, List.map_singleton,
    Files.Tree.walk_cons hdirectory fun n hn => hshort n (by simp [hn])]
  rfl

/-- What stands at the place of a manifest file is found under its path. -/
theorem Holds.stat_eq (hclosed : t.Closed) (hnames : ∀ n ∈ l, IsFileName n) (h : Holds t l f) :
    t.stat [] (Path.ofString (manifestPath l)) = .ok (l ++ [manifestFile], .file f) :=
  Files.Tree.stat_of_file (h.follow_eq hclosed hnames) h.node?_eq
    (isFileName_manifestFile.trailingSlash_join _)

/-- In a tree in which everything stands in a directory, a manifest file is found in a directory
just if one is there under a path that is taken. -/
theorem hasManifest_iff (hclosed : t.Closed) (hnames : ∀ n ∈ l, IsFileName n) :
    hasManifest t l = true ↔ ∃ f, Holds t l f := by
  constructor
  · intro hfound
    unfold hasManifest Files.Tree.isFile at hfound
    split at hfound
    · next k f hstat =>
      obtain ⟨hfollow, hnode⟩ := Files.Tree.of_stat hstat
      rw [Files.Tree.eq_of_follow hfollow, goal_manifestPath hnames] at hnode
      exact ⟨f, hnode, Files.Tree.fits_of_follow hfollow⟩
    · cases hfound
  · rintro ⟨f, h⟩
    rw [hasManifest, Files.Tree.isFile, h.stat_eq hclosed hnames]

/-- What the search comes to with the file of the manifest in a directory: the manifest that the
text of the file says, or why that is of no use, its bytes being no text or its text no manifest. -/
def outcome (l : Location) (f : File) : Except (String × LoadError) (Option (Manifest × String)) :=
  match String.fromUTF8? f.content with
  | none => .error (manifestPath l, .unreadable (manifestPath l) .invalidUtf8)
  | some text => match Manifest.parse text with
    | .error e => .error (manifestPath l, .unusable e)
    | .ok m => .ok (some (m, locationText l))

theorem outcome_of_toUTF8 (text : String) (hcontent : f.content = text.toUTF8) (l : Location) :
    outcome l f = match Manifest.parse text with
      | .error e => .error (manifestPath l, .unusable e)
      | .ok m => .ok (some (m, locationText l)) := by
  have hvalid : text.toUTF8.IsValidUTF8 := text.isValidUTF8
  have htext : String.fromUTF8? text.toUTF8 = some text := by
    rw [String.fromUTF8?, dif_pos hvalid]
    rfl
  rw [outcome, hcontent, htext]

/-- The text of a manifest is what its file holds. -/
theorem Holds.manifestText_eq (hclosed : t.Closed) (hnames : ∀ n ∈ l, IsFileName n)
    (h : Holds t l f) : manifestText t l = match String.fromUTF8? f.content with
      | none => .error .invalidUtf8
      | some text => .ok text := by
  have hbytes : t.readBytes [] (Path.ofString (manifestPath l)) = .ok f.content := by
    rw [Files.Tree.readBytes, h.stat_eq hclosed hnames]
    rfl
  rw [manifestText, Files.Tree.readText, hbytes]
  dsimp only [bind, Except.bind]
  cases String.fromUTF8? f.content <;> rfl

/-! ## The search -/

/-- What the search for a manifest file comes to from a directory upwards, with so many looks. Each
of them is into the directory above that of the last one, and behind the root there is none. -/
inductive Search (t : Tree) : Location → Nat → Option Location → Prop
  | found {l : Location} (hfound : hasManifest t l = true) : Search t l 1 (some l)
  | above {l : Location} {n : String} {looks : Nat} {result : Option Location}
      (hnone : hasManifest t (l ++ [n]) = false) (hrest : Search t l looks result) :
      Search t (l ++ [n]) (looks + 1) result
  | none (hnone : hasManifest t [] = false) : Search t [] 1 none

theorem search_nearestUp (t : Tree) (names : List String) :
    ∃ looks ≤ names.length + 1, Search t names.reverse looks (nearestUp t names) := by
  induction names with
  | nil =>
    unfold nearestUp
    split
    · next hfound => exact ⟨1, le_rfl, .found hfound⟩
    · next hnone => exact ⟨1, le_rfl, .none (Bool.eq_false_iff.2 hnone)⟩
  | cons n names ih =>
    unfold nearestUp
    dsimp only
    split
    · next hfound => exact ⟨1, by simp, .found hfound⟩
    · next hnone =>
      obtain ⟨looks, hle, hrest⟩ := ih
      rw [List.reverse_cons] at hnone ⊢
      exact ⟨looks + 1, by simpa using hle, .above (Bool.eq_false_iff.2 hnone) hrest⟩

/-- The search ends. It looks into each directory once at most. -/
theorem search_nearest? (t : Tree) (cwd : Location) :
    ∃ looks ≤ cwd.length + 1, Search t cwd looks (nearest? t cwd) := by
  have hsearch := search_nearestUp t cwd.reverse
  rwa [List.reverse_reverse, List.length_reverse] at hsearch

/-- With the nearest manifest, the search comes to what its file says. -/
theorem Holds.find_eq (hclosed : t.Closed) (hnames : ∀ n ∈ l, IsFileName n) (h : Holds t l f)
    (hnearest : IsNearest t cwd l) : find t cwd = outcome l f := by
  rw [find_of_isNearest hnearest, h.manifestText_eq hclosed hnames, outcome]
  cases String.fromUTF8? f.content <;> rfl

/-- Above a directory whose names are names of files there are only such directories. -/
theorem isFileName_above (hnames : ∀ n ∈ cwd, IsFileName n) (hl : l <+: cwd) :
    ∀ n ∈ l, IsFileName n :=
  fun n hn => hnames n (hl.subset hn)

/-- **The nearest manifest is used, or nothing.** Take any tree in which everything stands in a
directory, and any directory to start from. The search ends, after one look into each directory at
most. It comes to nothing just if no directory holds a manifest file, from the first one up to the
root. Otherwise the manifest is what the file in the nearest of those that hold one says, and if
that file is no text, or its text is no manifest, it fails. -/
theorem find_uses_nearest (hclosed : t.Closed) (hnames : ∀ n ∈ cwd, IsFileName n) :
    (∃ looks ≤ cwd.length + 1, Search t cwd looks (nearest? t cwd)) ∧
      (find t cwd = .ok none ↔ ∀ l, l <+: cwd → ∀ f, ¬ Holds t l f) ∧
      ∀ l f, l <+: cwd → Holds t l f → (∀ l', l' <+: cwd → ∀ f', Holds t l' f' → l' <+: l) →
        find t cwd = outcome l f := by
  have hholds : ∀ l, l <+: cwd → (hasManifest t l = true ↔ ∃ f, Holds t l f) := fun l hl =>
    hasManifest_iff hclosed (isFileName_above hnames hl)
  refine ⟨search_nearest? t cwd, ⟨fun hfind l hl f h => ?_, fun hnone => ?_⟩, ?_⟩
  · rcases nearest?_cases t cwd with ⟨-, hall⟩ | ⟨k, -, hk⟩
    · have hfound := (hholds l hl).2 ⟨f, h⟩
      rw [hall l hl] at hfound
      cases hfound
    · rw [find_of_isNearest hk] at hfind
      split at hfind
      · cases hfind
      · split at hfind <;> cases hfind
  · have hall : ∀ l, l <+: cwd → hasManifest t l = false := fun l hl =>
      Bool.eq_false_iff.2 fun hfound => by
        obtain ⟨f, h⟩ := (hholds l hl).1 hfound
        exact hnone l hl f h
    rw [find, nearest?_of_none hall]
  · intro l f hl h hnearest
    have hisNearest : IsNearest t cwd l := by
      refine ⟨hl, (hholds l hl).2 ⟨f, h⟩, fun l' hl' hfound => ?_⟩
      obtain ⟨f', h'⟩ := (hholds l' hl').1 hfound
      exact hnearest l' hl' f' h'
    exact h.find_eq hclosed (isFileName_above hnames hl) hisNearest

/-- A project with a broken one in it, and directories in the place of manifests. -/
def strayTree : Tree :=
  ⟨[([manifestFile], .file { content := (template "Outer").toUTF8 }),
    (["a"], .directory), (["a", manifestFile], .file { content := "[project\n".toUTF8 }),
    (["a", "b"], .directory), (["a", "b", manifestFile], .directory),
    (["c"], .directory), (["c", manifestFile], .directory)]⟩

theorem closed_strayTree : strayTree.Closed := by
  refine Files.Tree.closed_of_entries ?_
  simp [strayTree, Files.Tree.node?, List.lookup_cons, manifestFile]

/-- From within the broken project the command fails, from elsewhere the outer one is used, and
without either there is nothing. -/
theorem find_in_strayTree :
    find strayTree ["a", "b"] = .error ("/a/ucgen.toml", .unusable .malformed) ∧
      find strayTree ["c"] = .ok (some (newManifest "Outer", "/")) ∧
      find ⟨[(["c"], .directory)]⟩ ["c"] = .ok none := by
  have hroot : Holds strayTree [] { content := (template "Outer").toUTF8 } :=
    ⟨rfl, by decide⟩
  have hbroken : Holds strayTree ["a"] { content := "[project\n".toUTF8 } :=
    ⟨rfl, by decide⟩
  have hstray : ∀ f, ¬ Holds strayTree ["a", "b"] f ∧ ¬ Holds strayTree ["c"] f := by
    refine fun f => ⟨fun h => ?_, fun h => ?_⟩
    · cases (show strayTree.node? ["a", "b", manifestFile] = some .directory from rfl).symm.trans
        h.node?_eq
    · cases (show strayTree.node? ["c", manifestFile] = some .directory from rfl).symm.trans
        h.node?_eq
  have houter : Manifest.parse (template "Outer") = .ok (newManifest "Outer") :=
    parse_template (by decide) (List.all_eq_true.1 (by decide))
  have hinside : ∀ n ∈ ["a", "b"], IsFileName n := by
    decide
  have hbeside : ∀ n ∈ ["c"], IsFileName n := by
    decide
  refine ⟨?_, ?_, ?_⟩
  · obtain ⟨-, -, hnearest⟩ := find_uses_nearest closed_strayTree hinside
    rw [hnearest ["a"] _ ⟨["b"], rfl⟩ hbroken fun l hl f h => ?_]
    · have hmalformed : Manifest.parse "[project\n" = .error .malformed := by
        decide +kernel
      rw [outcome_of_toUTF8 "[project\n" rfl, hmalformed]
      rfl
    · rw [show ["a", "b"] = ["a"] ++ ["b"] from rfl, List.prefix_concat_iff] at hl
      refine hl.resolve_left ?_
      rintro rfl
      exact (hstray f).1 h
  · obtain ⟨-, -, hnearest⟩ := find_uses_nearest closed_strayTree hbeside
    rw [hnearest [] _ List.nil_prefix hroot fun l hl f h => ?_]
    · rw [outcome_of_toUTF8 (template "Outer") rfl, houter]
      rfl
    · rw [show ["c"] = [] ++ ["c"] from rfl, List.prefix_concat_iff] at hl
      refine hl.resolve_left ?_
      rintro rfl
      exact (hstray f).2 h
  · have hclosed : Tree.Closed ⟨[(["c"], .directory)]⟩ :=
      Files.Tree.closed_of_entries (by simp [Files.Tree.node?])
    obtain ⟨-, hnone, -⟩ := find_uses_nearest hclosed hbeside
    refine hnone.2 fun l hl f h => ?_
    have hnode := h.node?_eq
    rw [show ["c"] = [] ++ ["c"] from rfl, List.prefix_concat_iff, List.prefix_nil] at hl
    rcases hl with rfl | rfl
    · cases hnode
    · cases hnode

/-! ## Manifests too deep to be found -/

/-- Directories of one name, so many of them, each in the one before. -/
def nested (name : String) : Nat → Tree
  | 0 => ⟨[]⟩
  | depth + 1 => (nested name depth).put (List.replicate depth name ++ [name]) .directory

theorem nested_spec (name : String) (depth : Nat) :
    (nested name depth).Closed ∧
      (nested name depth).node? (List.replicate depth name) = some .directory ∧
      ∀ l, (nested name depth).node? l ≠ none → ∃ k ≤ depth, l = List.replicate k name := by
  induction depth with
  | zero =>
    have hnone : ∀ (l : Location), l ≠ [] → (nested name 0).node? l = none := fun l hl => by
      rw [nested, Files.Tree.node?, if_neg (by simpa using hl)]
      rfl
    refine ⟨fun l n hn => absurd (hnone _ (by simp)) hn, rfl, fun l hl => ⟨0, le_rfl, ?_⟩⟩
    by_contra hempty
    exact hl (hnone l hempty)
  | succ depth ih =>
    obtain ⟨hclosed, hlast, honly⟩ := ih
    have hnext : List.replicate depth name ++ [name] = List.replicate (depth + 1) name :=
      List.replicate_succ'.symm
    -- What is there so far is no deeper than `depth`, so the new directory takes no place.
    have hfree : (nested name depth).node? (List.replicate depth name ++ [name]) ≠
        some .directory := by
      intro hthere
      obtain ⟨k, hk, heq⟩ := honly _ (by rw [hthere]; exact Option.some_ne_none _)
      have hlength := congrArg List.length heq
      simp only [hnext, List.length_replicate] at hlength
      omega
    refine ⟨hclosed.put hlast hfree _, ?_, fun l hl => ?_⟩
    · rw [nested, hnext]
      exact Files.Tree.node?_put_self _ (by simp) _
    · by_cases hnew : l = List.replicate (depth + 1) name
      · exact ⟨depth + 1, le_rfl, hnew⟩
      · rw [nested, hnext, Files.Tree.node?_put_of_ne _ hnew] at hl
        obtain ⟨k, hk, heq⟩ := honly l hl
        exact ⟨k, by omega, heq⟩

/-- The path of a manifest is longer than that of its directory by the name of the manifest at
least. -/
theorem le_utf8ByteSize_manifestPath (l : Location) :
    (locationText l).utf8ByteSize + 10 ≤ (manifestPath l).utf8ByteSize := by
  have hname : manifestFile.utf8ByteSize = 10 := by
    decide
  rw [manifestPath, Path.join, if_neg (by decide)]
  split <;> simp only [String.utf8ByteSize_append, hname] <;> omega

/-- A name of 226 bytes. -/
def longName : String :=
  String.ofList (List.replicate 226 'd')

/-- Directories with the long name, each in the one before, down to where the path of a manifest is
too long. -/
def deepLocation : Location :=
  List.replicate 18 longName

/-- Those directories, with a manifest in the last one of them and another one beside the first. -/
def deepTree : Tree :=
  ((nested longName 18).put (deepLocation ++ [manifestFile])
    (.file { content := (template "Inner").toUTF8 })).put [manifestFile]
    (.file { content := (template "Outer").toUTF8 })

theorem utf8ByteSize_longName : longName.utf8ByteSize = 226 := by
  decide +kernel

theorem isFileName_longName : IsFileName longName := by
  have hslash : ∀ n, '/' ∉ (String.ofList (List.replicate n 'd')).toList := by
    intro n hmem
    rw [String.toList_ofList] at hmem
    exact absurd (List.eq_of_mem_replicate hmem) (by decide)
  exact isFileName_of_notMem (hslash 226) (by rw [utf8ByteSize_longName]; decide)

/-- The path of the manifest in the last directory is too long. -/
theorem not_fits_deepLocation : ¬ (Path.ofString (manifestPath deepLocation)).Fits := by
  intro hfits
  have hlocation : (locationText deepLocation).utf8ByteSize = 18 * 227 := by
    rw [Files.utf8ByteSize_locationText (by simp [deepLocation]), deepLocation, List.map_replicate,
      utf8ByteSize_longName, List.sum_replicate_nat]
  have hsize := hfits.short
  rw [Path.size, Path.text_ofString] at hsize
  have hle := le_utf8ByteSize_manifestPath deepLocation
  omega

/-- Nothing among the directories has the name of a manifest. -/
theorem node?_nested_manifestFile (l : Location) :
    (nested longName 18).node? (l ++ [manifestFile]) = none := by
  by_contra hthere
  obtain ⟨k, -, heq⟩ := (nested_spec longName 18).2.2 _ hthere
  have hmem : manifestFile ∈ List.replicate k longName := by
    rw [← heq]
    exact List.mem_append_right _ (.head _)
  exact absurd (List.eq_of_mem_replicate hmem) (by decide +kernel)

theorem closed_deepTree : deepTree.Closed := by
  obtain ⟨hclosed, hlast, -⟩ := nested_spec longName 18
  have hinner := hclosed.put (n := manifestFile) hlast
    (by rw [node?_nested_manifestFile]; exact (Option.some_ne_none _).symm)
    (.file { content := (template "Inner").toUTF8 })
  refine hinner.put (l := []) rfl ?_ _
  have hother : ([] : Location) ++ [manifestFile] ≠
      List.replicate 18 longName ++ [manifestFile] := by
    simp
  rw [Files.Tree.node?_put_of_ne _ hother, node?_nested_manifestFile]
  exact (Option.some_ne_none _).symm

/-- There are two manifests, the inner one in the last directory and the outer one at the root. -/
theorem node?_deepTree_manifestFile (l : Location) :
    deepTree.node? (l ++ [manifestFile]) =
      if l = [] then some (.file { content := (template "Outer").toUTF8 })
      else if l = deepLocation then some (.file { content := (template "Inner").toUTF8 })
      else none := by
  split
  · next hroot =>
    subst hroot
    exact Files.Tree.node?_put_self _ (List.cons_ne_nil _ _) _
  · next hroot =>
    rw [deepTree, Files.Tree.node?_put_of_ne _ (by simpa using hroot)]
    split
    · next hdeep =>
      subst hdeep
      exact Files.Tree.node?_put_self _ (by simp) _
    · next hdeep =>
      rw [Files.Tree.node?_put_of_ne _ (by simpa using hdeep), node?_nested_manifestFile]

/-- A manifest whose path is too long is passed over for one that is further up. -/
theorem find_passes_over_deep_manifest :
    deepTree.Closed ∧ (∀ n ∈ deepLocation, IsFileName n) ∧
      deepTree.node? (deepLocation ++ [manifestFile]) =
        some (.file { content := (template "Inner").toUTF8 }) ∧
      Manifest.parse (template "Inner") = .ok (newManifest "Inner") ∧
      find deepTree deepLocation = .ok (some (newManifest "Outer", "/")) ∧
      find deepTree deepLocation ≠ .ok (some (newManifest "Inner", locationText deepLocation)) := by
  have hnames : ∀ n ∈ deepLocation, IsFileName n := fun n hn => by
    rw [List.eq_of_mem_replicate hn]
    exact isFileName_longName
  have hroot : Holds deepTree [] { content := (template "Outer").toUTF8 } :=
    ⟨node?_deepTree_manifestFile [], by decide⟩
  -- The only other directory with a manifest is the last one, and the path there does not fit.
  have hnearest : IsNearest deepTree deepLocation [] := by
    refine ⟨List.nil_prefix, (hasManifest_iff closed_deepTree (by simp)).2 ⟨_, hroot⟩, ?_⟩
    intro l hl hfound
    obtain ⟨f, h⟩ := (hasManifest_iff closed_deepTree (isFileName_above hnames hl)).1 hfound
    have hnode := h.node?_eq
    rw [node?_deepTree_manifestFile] at hnode
    split at hnode
    · next hempty => exact List.prefix_nil.2 hempty
    · split at hnode
      · next hdeep => exact absurd (hdeep ▸ h.fits) not_fits_deepLocation
      · cases hnode
  have houter : Manifest.parse (template "Outer") = .ok (newManifest "Outer") :=
    parse_template (by decide) (List.all_eq_true.1 (by decide))
  have hinner : Manifest.parse (template "Inner") = .ok (newManifest "Inner") :=
    parse_template (by decide) (List.all_eq_true.1 (by decide))
  have hfind : find deepTree deepLocation = .ok (some (newManifest "Outer", "/")) := by
    rw [hroot.find_eq closed_deepTree (by simp) hnearest,
      outcome_of_toUTF8 (template "Outer") rfl, houter]
    rfl
  refine ⟨closed_deepTree, hnames, ?_, hinner, hfind, ?_⟩
  · rw [node?_deepTree_manifestFile, if_neg (by simp [deepLocation]), if_pos rfl]
  · rw [hfind]
    intro heq
    have hname := congrArg (fun found => found.map fun m : Manifest × String => m.1.name)
      (Except.ok.inj heq)
    exact absurd hname (by decide)

end Project

end ReactorDeploy
