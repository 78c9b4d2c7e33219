import ReactorDeploy.Proofs.Files.Making

/-!
# What making directories leaves behind

Making a directory and those above it may fail half-way, and what has been made by then stays. But
whatever comes of it, nothing that was there is changed, and nothing is new but directories on the
way that the path takes (`grown_makeDirectories`). Where the path goes down to a name, either all
directories are made or none (`Descends.makeDirectories_cases`).
-/

namespace ReactorDeploy.Files

/-- The places that a path leads through from a working directory, its goal included. -/
def Path.stops (cwd : Location) (p : Path) : List Location :=
  Step.stops (p.start cwd) p.steps

/-- What the first steps lead to is one of the places that all steps lead through. -/
theorem Step.foldl_arrive_mem_stops {steps more : List Step} (l : Location) :
    steps.foldl Step.arrive l ∈ Step.stops l (steps ++ more) := by
  induction steps generalizing l with
  | nil => cases more <;> simp [Step.stops]
  | cons step steps ih => exact .tail _ (ih (step.arrive l))

/-- The first parts of a path lead to one of the places that the path leads through. -/
theorem Path.goal_mem_stops (cwd : Location) (absolute : Bool) (parts more : List String) :
    Path.goal cwd ⟨absolute, parts⟩ ∈ Path.stops cwd ⟨absolute, parts ++ more⟩ := by
  have hsteps : Path.steps ⟨absolute, parts ++ more⟩ =
      Path.steps ⟨absolute, parts⟩ ++ more.filterMap Path.stepOf? := List.filterMap_append
  rw [Path.stops, hsteps]
  exact Step.foldl_arrive_mem_stops _

namespace Tree

variable {t t' t'' : Tree} {places : Location → Prop}

/-- A tree with directories where nothing was, at some of the given places, and otherwise as it
was. -/
structure Grown (places : Location → Prop) (t t' : Tree) : Prop where
  node : ∀ l, t'.node? l = t.node? l ∨
    places l ∧ t.node? l = none ∧ t'.node? l = some .directory
  closed : t.Closed → t'.Closed

theorem Grown.refl (places : Location → Prop) (t : Tree) : Grown places t t :=
  ⟨fun _ => .inl rfl, id⟩

/-- What is there stays. -/
theorem Grown.kept (h : Grown places t t') {l : Location} (hl : t.node? l ≠ none) :
    t'.node? l = t.node? l :=
  (h.node l).resolve_right fun hnew => hl hnew.2.1

theorem Grown.trans (h : Grown places t t') (h' : Grown places t' t'') :
    Grown places t t'' := by
  refine ⟨fun l => ?_, fun hclosed => h'.closed (h.closed hclosed)⟩
  rcases h'.node l with heq | ⟨hplace, hnone, hnew⟩
  · rw [heq]
    exact h.node l
  · refine .inr ⟨hplace, ?_, hnew⟩
    by_contra hl
    exact hl ((h.kept hl).symm.trans hnone)

/-- Directories in new places change no file. -/
theorem Grown.file?_eq (h : Grown places t t') (l : Location) : t'.file? l = t.file? l := by
  rcases h.node l with heq | ⟨-, hnone, hnew⟩
  · rw [file?, file?, heq]
  · rw [file?, file?, hnone, hnew]

/-- A path that ends in a name leads to a place in a directory. -/
theorem exists_parent_of_follow {cwd l : Location} {p : Path} {n : String}
    (h : t.follow cwd p = .ok l) (hlast : p.steps.getLast? = some (.name n)) :
    ∃ m, t.node? m = some .directory ∧ l = m ++ [n] := by
  obtain ⟨init, hinit⟩ := List.getLast?_eq_some_iff.1 hlast
  have hwalk := walk_of_follow h
  rw [hinit] at hwalk
  obtain ⟨m, -, hm⟩ := exists_of_walk_append hwalk
  obtain ⟨hdirectory, -, hl⟩ := of_walk_cons hm
  exact ⟨m, hdirectory, (Except.ok.inj hl).symm⟩

/-- A directory is made in a directory, where nothing was. -/
theorem exists_of_makeDirectory {cwd : Location} {p : Path} (h : t.makeDirectory cwd p = .ok t') :
    ∃ m n, p.goal cwd = m ++ [n] ∧ t.node? m = some .directory ∧ t.node? (m ++ [n]) = none ∧
      t' = t.put (m ++ [n]) .directory := by
  obtain ⟨l, hfollow, h⟩ := exists_of_bind h
  split at h
  · next n hlast =>
    split at h
    · cases h
    · next hnone =>
      obtain ⟨m, hm, rfl⟩ := exists_parent_of_follow hfollow hlast
      exact ⟨m, n, (eq_of_follow hfollow).symm, hm, Option.not_isSome_iff_eq_none.1 hnone,
        (Except.ok.inj h).symm⟩
  · cases h

/-- A file is written in a directory, where no directory is. -/
theorem exists_of_writeFile {cwd : Location} {p : Path} {content : ByteArray}
    (h : t.writeFile cwd p content = .ok t') :
    ∃ m n, p.goal cwd = m ++ [n] ∧ t.node? m = some .directory ∧
      t.node? (m ++ [n]) ≠ some .directory ∧
      t' = t.put (m ++ [n]) (.file ⟨content, (t.file? (m ++ [n])).any File.executable⟩) := by
  obtain ⟨l, hfollow, h⟩ := exists_of_bind h
  split at h
  · next n hlast =>
    split at h
    · cases h
    · obtain ⟨m, hm, rfl⟩ := exists_parent_of_follow hfollow hlast
      refine ⟨m, n, (eq_of_follow hfollow).symm, hm, ?_⟩
      unfold file?
      split at h
      · next hnode =>
        rw [hnode]
        exact ⟨nofun, (Except.ok.inj h).symm⟩
      · cases h
      · next f hnode =>
        rw [hnode]
        exact ⟨nofun, (Except.ok.inj h).symm⟩
  · cases h

theorem grown_makeDirectory {cwd : Location} {p : Path} (hp : places (p.goal cwd))
    (h : t.makeDirectory cwd p = .ok t') : Grown places t t' := by
  obtain ⟨m, n, hgoal, hm, hnone, rfl⟩ := exists_of_makeDirectory h
  rw [hgoal] at hp
  refine ⟨fun l => ?_, fun hclosed => hclosed.put hm (by simp [hnone]) _⟩
  by_cases hl : l = m ++ [n]
  · subst hl
    exact .inr ⟨hp, hnone, node?_put_self t (by simp) _⟩
  · exact .inl (node?_put_of_ne t hl _)

/-- What is made on the way up adds no more than what is made above. -/
theorem grown_makeDirectoryAfter {above : Tree → Except FileError Unit × Tree}
    (habove : ∀ t, Grown places t (above t).2) {cwd : Location} {p : Path}
    (hp : places (p.goal cwd)) (t : Tree) :
    Grown places t (makeDirectoryAfter above t cwd p).2 := by
  have hfirst := habove t
  unfold makeDirectoryAfter
  split
  · next t' h => exact grown_makeDirectory hp h
  · split
    · next e t' h => rwa [h] at hfirst
    · next t' h =>
      rw [h] at hfirst
      split
      · next t'' h' => exact hfirst.trans (grown_makeDirectory hp h')
      · split <;> exact hfirst
  · split <;> exact .refl places t

theorem grown_makeDirectoriesUp {cwd : Location} {absolute : Bool} {parts : List String}
    (hparts : ∀ before, before <:+ parts → places (Path.goal cwd ⟨absolute, before.reverse⟩))
    (t : Tree) : Grown places t (makeDirectoriesUp cwd absolute parts t).2 := by
  induction parts generalizing t with
  | nil => exact .refl places t
  | cons part before ih =>
    have hbefore := fun rest (h : rest <:+ before) => hparts rest (h.trans (List.suffix_cons _ _))
    rw [makeDirectoriesUp]
    split
    · exact ih hbefore t
    · exact grown_makeDirectoryAfter (ih hbefore) (hparts _ List.suffix_rfl) t

/-- What is left of a path on the way up is a part of it. -/
theorem settle_isSuffix (absolute : Bool) (parts : List String) :
    Path.settle absolute parts <:+ parts := by
  induction parts with
  | nil => exact List.suffix_rfl
  | cons part before ih =>
    rw [Path.settle]
    split
    · exact ih.trans (List.suffix_cons _ _)
    · exact List.suffix_rfl

/-- Making the directories above a path adds directories that the path leads through, and nothing
else, even if it fails. -/
theorem grown_makeParents (t : Tree) (cwd : Location) (p : Path) :
    Grown (· ∈ p.stops cwd) t (t.makeParents cwd p).2 := by
  refine grown_makeDirectoriesUp (fun before hbefore => ?_) t
  have hsuffix : before <:+ p.parts.reverse :=
    hbefore.trans ((List.tail_suffix _).trans (settle_isSuffix _ _))
  obtain ⟨more, hmore⟩ := List.reverse_prefix.2 hsuffix
  rw [List.reverse_reverse] at hmore
  have hp : p = ⟨p.absolute, before.reverse ++ more⟩ := by rw [hmore]
  rw [hp]
  exact Path.goal_mem_stops cwd _ _ _

/-- Making a directory and those above it adds directories that the path leads through, and nothing
else, even if it fails. -/
theorem grown_makeDirectories (t : Tree) (cwd : Location) (p : Path) :
    Grown (· ∈ p.stops cwd) t (t.makeDirectories cwd p).2 := by
  unfold makeDirectories
  split
  · exact .refl _ t
  · refine grown_makeDirectoryAfter (fun t => grown_makeParents t cwd p) ?_ t
    have hmem := Path.goal_mem_stops cwd p.absolute p.parts []
    rwa [List.append_nil] at hmem

/-- What is reached on the way to a directory is where its path leads. -/
theorem Way.goal_eq {cwd base : Location} {p : Path} {fixed rest : List Step}
    (hway : Way t (p.start cwd) base fixed rest) (hp : p.steps = fixed ++ rest) :
    p.goal cwd = base ++ rest.filterMap Step.name? := by
  rw [Path.goal, hp, List.foldl_append, ← eq_of_walk hway.reached]
  exact Path.foldl_arrive hway.descends base

/-! ## All or nothing -/

/-- Whether a path goes down to a name: it goes up, if at all, only among directories that are
there, and the last thing it does is to enter a name. -/
def Descends (t : Tree) (cwd : Location) (p : Path) : Prop :=
  ∃ base fixed rest n, p.steps = fixed ++ (rest ++ [.name n]) ∧
    t.walk (p.start cwd) fixed = .ok base ∧ t.node? base = some .directory ∧ .up ∉ rest

theorem eq_of_stepOf?_name {part n : String} (h : Path.stepOf? part = some (.name n)) :
    part = n := by
  unfold Path.stepOf? at h
  split_ifs at h <;> simp_all

theorem eq_of_stepOf?_none {part : String} (h : Path.stepOf? part = none) : part = "" := by
  unfold Path.stepOf? at h
  split_ifs at h
  assumption

/-- The last name of a path is a part of it, and only slashes come behind it. -/
theorem exists_parts_of_steps {p : Path} {steps : List Step} {n : String}
    (h : p.steps = steps ++ [.name n]) :
    ∃ before idle, p.parts = before ++ n :: idle ∧ Path.stepOf? n = some (.name n) ∧
      before.filterMap Path.stepOf? = steps ∧ ∀ part ∈ idle, part = "" := by
  obtain ⟨before, behind, hparts, hbefore, hbehind⟩ := List.filterMap_eq_append_iff.1 h
  obtain ⟨skipped, part, idle, rfl, hskipped, hpart, hidle⟩ := List.filterMap_eq_cons_iff.1 hbehind
  obtain rfl := eq_of_stepOf?_name hpart
  refine ⟨before ++ skipped, idle, by rw [hparts, List.append_assoc], hpart, ?_, fun part hmem => ?_⟩
  · rw [List.filterMap_append, hbefore, List.filterMap_eq_nil_iff.2 hskipped, List.append_nil]
  · exact eq_of_stepOf?_none (List.filterMap_eq_nil_iff.1 hidle part hmem)

/-- Steps that never go up cannot be followed through a file. -/
theorem walk_through_file (hclosed : t.Closed) {l : Location} {rest : List Step} {q : List String}
    (hup : .up ∉ rest) (hshort : ∀ n, .name n ∈ rest → n.utf8ByteSize ≤ 255)
    (hq : q <+: rest.filterMap Step.name?) (hfile : t.file? (l ++ q) ≠ none) (step : Step) :
    t.walk l (rest ++ [step]) = .error .notDirectory := by
  have hstop : ∀ {l}, t.file? l ≠ none → ∀ step steps,
      t.walk l (step :: steps) = .error .notDirectory := by
    intro l hl step steps
    unfold file? at hl
    split at hl
    · next f hnode => simp only [walk, hnode]
    · exact absurd rfl hl
  induction rest generalizing l q with
  | nil =>
    obtain rfl : q = [] := List.prefix_nil.1 hq
    rw [List.append_nil] at hfile
    exact hstop hfile step []
  | cons first rest ih =>
    by_cases hhere : t.file? l = none
    · rw [List.mem_cons, not_or] at hup
      have hne : q ≠ [] := by
        rintro rfl
        rw [List.append_nil] at hfile
        exact hfile hhere
      have hnode : t.node? (l ++ q) ≠ none := by
        intro hnone
        rw [file?, hnone] at hfile
        exact hfile rfl
      have hl := hclosed.above hne hnode
      rw [List.cons_append, walk_cons hl fun n hn => hshort n (hn ▸ .head _)]
      have hrest := fun n hn => hshort n (.tail _ hn)
      cases first with
      | here => exact ih hup.2 hrest hq hfile
      | up => exact absurd rfl hup.1
      | name m =>
        obtain ⟨q, rfl⟩ : ∃ q', q = m :: q' := by
          obtain ⟨m', q', rfl⟩ := List.exists_cons_of_ne_nil hne
          obtain ⟨rfl, -⟩ := List.cons_prefix_cons.1 hq
          exact ⟨q', rfl⟩
        refine ih hup.2 hrest (List.cons_prefix_cons.1 hq).2 ?_
        rwa [Step.arrive, List.append_assoc]
    · exact hstop hhere first _

/-- Without a missing directory above it, a directory that cannot be made is left alone. -/
theorem makeDirectoryAfter_of_error {cwd : Location} {p : Path} {e : FileError}
    (hmake : t.makeDirectory cwd p = .error e) (he : e ≠ .notFound)
    (hdirectory : t.isDirectory cwd p = false) (above : Tree → Except FileError Unit × Tree) :
    makeDirectoryAfter above t cwd p = (.error e, t) := by
  unfold makeDirectoryAfter
  rw [hmake]
  split
  · next h => cases h
  · next h => exact absurd (Except.error.inj h) he
  · next h =>
    rw [hdirectory, ← Except.error.inj h]
    rfl

/-- No path to a file is one to a directory. -/
theorem isDirectory_of_file {cwd l : Location} {p : Path} (hfollow : t.follow cwd p = .ok l)
    {f : File} (hl : t.node? l = some (.file f)) : t.isDirectory cwd p = false := by
  rw [isDirectory, stat_of_follow hfollow, hl]
  cases p.trailingSlash <;> rfl

/-- Where a file stands on the way or at its end, no directory is made. -/
theorem makeDirectories_of_file (hclosed : t.Closed) {cwd base : Location} {p : Path}
    {fixed rest : List Step} {n : String} (hp : p.steps = fixed ++ (rest ++ [.name n]))
    (hreached : t.walk (p.start cwd) fixed = .ok base) (hup : .up ∉ rest) (hfits : p.Fits)
    {q : List String} (hq : q <+: (rest ++ [Step.name n]).filterMap Step.name?)
    (hfile : t.file? (base ++ q) ≠ none) : ∃ e, t.makeDirectories cwd p = (.error e, t) := by
  have hne : p.steps ≠ [] := by simp [hp]
  have hempty : p.isEmpty = false := by simp [Path.isEmpty, hne]
  have hshort : ∀ m, .name m ∈ rest ++ [.name n] → m.utf8ByteSize ≤ 255 := fun m hm =>
    hfits.short_of_steps hp hm
  have hfollow := follow_eq hfits hne t cwd
  rw [hp, walk_append hreached] at hfollow
  rw [List.filterMap_append] at hq
  unfold makeDirectories
  rw [hempty, if_neg Bool.false_ne_true]
  rcases List.prefix_concat_iff.1 hq with rfl | hq
  · -- The file stands at the end, and its directory is one that is there.
    have hlast : p.steps.getLast? = some (.name n) := by
      rw [hp, ← List.append_assoc, List.getLast?_concat]
    rw [← List.append_assoc] at hfile
    obtain ⟨f, hf⟩ : ∃ f, t.node? (base ++ rest.filterMap Step.name? ++ [n]) = some (.file f) := by
      unfold file? at hfile
      split at hfile
      · next f hnode => exact ⟨f, hnode⟩
      · exact absurd rfl hfile
    have hparent := hclosed _ n (by rw [hf]; nofun)
    have halong := walk_names hup (fun m hm => hshort m (List.mem_append_left _ hm))
      (Made.of_directory hclosed hparent).made
    rw [walk_append halong, walk_cons hparent fun m hm => hshort m (by simp [hm])] at hfollow
    have hmake : t.makeDirectory cwd p = .error .alreadyExists := by
      unfold makeDirectory
      rw [hfollow]
      dsimp only [bind, Except.bind, walk, Step.arrive]
      rw [hlast, hf]
      rfl
    exact ⟨_, makeDirectoryAfter_of_error hmake nofun (isDirectory_of_file hfollow hf) _⟩
  · rw [walk_through_file hclosed hup (fun m hm => hshort m (List.mem_append_left _ hm)) hq hfile]
      at hfollow
    have hmake : t.makeDirectory cwd p = .error .notDirectory := by
      unfold makeDirectory
      rw [hfollow]
      rfl
    refine ⟨_, makeDirectoryAfter_of_error hmake nofun ?_ _⟩
    unfold isDirectory stat
    rw [hfollow]
    rfl

/-- Directories that a path goes down to are all made, or none of them is. Then a file stands on the
way. -/
theorem Descends.makeDirectories_cases (hclosed : t.Closed) {cwd : Location} {p : Path}
    (h : t.Descends cwd p) (hfits : p.Fits) :
    (∃ e, t.makeDirectories cwd p = (.error e, t)) ∨
      ∃ t' base names, t.makeDirectories cwd p = (.ok (), t') ∧ Made t t' base names ∧
        p.goal cwd = base ++ names ∧ t'.walk (p.start cwd) p.steps = .ok (p.goal cwd) := by
  obtain ⟨base, fixed, rest, n, hp, hreached, hbase, hup⟩ := h
  by_cases hfree : ∀ q, q <+: (rest ++ [Step.name n]).filterMap Step.name? → t.file? (base ++ q) = none
  · right
    have hway : Way t (p.start cwd) base fixed (rest ++ [.name n]) :=
      ⟨hreached, hbase, by simp [hup], hfree⟩
    have hempty : p.isEmpty = false := by simp [Path.isEmpty, hp]
    obtain ⟨before, idle, hparts, hn, hbefore, hidle⟩ :=
      exists_parts_of_steps (hp.trans (List.append_assoc ..).symm)
    obtain ⟨t', hmake, hmade⟩ := exists_makeDirectoryAfter hclosed hp (by simp [hp]) hway hfits
      (by simp) fun rest' m hrest => by
        obtain ⟨rfl, -⟩ := List.append_inj' hrest rfl
        exact exists_makeParents hclosed hparts hn hidle hbefore hway.of_concat hfits
    have hgoal := hway.goal_eq hp
    refine ⟨t', base, _, ?_, hmade, hgoal, ?_⟩
    · unfold makeDirectories
      rw [hempty]
      exact hmake
    · rw [hp, walk_append (walk_of_directories (fun l hl => hmade.directory hl) hreached), hgoal]
      exact walk_names hway.descends (fun m hm => hfits.short_of_steps hp hm) hmade.made
  · push Not at hfree
    obtain ⟨q, hq, hfile⟩ := hfree
    exact .inl (makeDirectories_of_file hclosed hp hreached hup hfits hq hfile)

end Tree

end ReactorDeploy.Files
