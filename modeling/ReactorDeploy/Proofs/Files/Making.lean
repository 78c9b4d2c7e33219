import ReactorDeploy.Proofs.Files.Standing
import Mathlib.Data.List.Infix

/-!
# When directories can be made

In a tree in which everything stands in a directory, the directories that a path needs can be made
as soon as no file stands on its way and it is one that an operating system takes
(`exists_makeParents`). The tree is then what it was, with those directories (`Made`).
-/

namespace ReactorDeploy

open Files (Location Path Step Node File FileError Tree)

namespace Files

/-- What an operating system asks of a path: none of its names is too long or has the character
NUL in it, and it is not too long itself. -/
structure Path.Fits (p : Path) : Prop where
  names : ∀ n ∈ p.names, n.utf8ByteSize ≤ 255
  plain : p.steps.any Path.hasNul = false
  short : p.size < 4096

instance (p : Path) : Decidable p.Fits :=
  decidable_of_iff ((∀ n ∈ p.names, n.utf8ByteSize ≤ 255) ∧ p.steps.any Path.hasNul = false ∧
      p.size < 4096)
    ⟨fun ⟨hnames, hplain, hshort⟩ => ⟨hnames, hplain, hshort⟩,
      fun h => ⟨h.names, h.plain, h.short⟩⟩

/-- A path fits if one that goes on from it does, and is no shorter. -/
theorem Path.Fits.of_steps {p q : Path} (h : q.Fits) {more : List Step}
    (hsteps : q.steps = p.steps ++ more) (hsize : p.size ≤ q.size) : p.Fits := by
  refine ⟨fun n hn => h.names n ?_, ?_, lt_of_le_of_lt hsize h.short⟩
  · rw [Path.names, hsteps, List.filterMap_append]
    exact List.mem_append_left _ hn
  · have hplain := h.plain
    rw [hsteps, List.any_append, Bool.or_eq_false_iff] at hplain
    exact hplain.1

/-- A path that fits does so from the start. -/
theorem Path.Fits.of_append {absolute : Bool} {parts more : List String}
    (h : Path.Fits ⟨absolute, parts ++ more⟩) : Path.Fits ⟨absolute, parts⟩ :=
  h.of_steps List.filterMap_append (Path.size_le_append _ _ _)

/-- A directory's path fits if that of something in it does. -/
theorem Path.Fits.of_join {directory rel : String} (hrel : (Path.ofString rel).absolute = false)
    (h : (Path.ofString (Path.join directory rel)).Fits) : (Path.ofString directory).Fits := by
  refine h.of_steps (Path.steps_join hrel) ?_
  rw [Path.size, Path.size, Path.text_ofString, Path.text_ofString]
  rw [Path.absolute_ofString, beq_eq_false_iff_ne] at hrel
  rw [Path.join, if_neg hrel]
  split <;> simp only [String.utf8ByteSize_append] <;> omega

/-- The names along steps of a path that fits are short. -/
theorem Path.Fits.short_of_steps {p : Path} (h : p.Fits) {steps more : List Step}
    (hp : p.steps = steps ++ more) {n : String} (hn : .name n ∈ more) : n.utf8ByteSize ≤ 255 := by
  refine h.names n (List.mem_filterMap.2 ⟨.name n, ?_, rfl⟩)
  rw [hp]
  exact List.mem_append_right _ hn

namespace Tree

variable {t t' : Tree}

/-! ## Trees in which everything stands in a directory -/

/-- Everything in the tree stands in a directory. -/
def Closed (t : Tree) : Prop :=
  ∀ (l : Location) (n : String), t.node? (l ++ [n]) ≠ none → t.node? l = some .directory

/-- What stands above something is a directory. -/
theorem Closed.above (h : t.Closed) {l q : Location} (hq : q ≠ []) (hl : t.node? (l ++ q) ≠ none) :
    t.node? l = some .directory := by
  induction q using List.reverseRecOn with
  | nil => exact absurd rfl hq
  | append_singleton q n ih =>
    rw [← List.append_assoc] at hl
    have hparent := h (l ++ q) n hl
    by_cases hempty : q = []
    · rwa [hempty, List.append_nil] at hparent
    · exact ih hempty (by rw [hparent]; nofun)

/-- Everything stands in a directory if every entry does. -/
theorem closed_of_entries (h : ∀ e ∈ t.entries, t.node? e.1.dropLast = some .directory) :
    t.Closed := by
  intro l n hn
  have hlookup : t.entries.lookup (l ++ [n]) ≠ none := by
    rwa [node?, if_neg (by simp)] at hn
  obtain ⟨node, hnode⟩ := Option.ne_none_iff_exists'.1 hlookup
  obtain ⟨before, after, hentries, -⟩ := List.lookup_eq_some_iff.1 hnode
  have hparent := h (l ++ [n], node) (by rw [hentries]; simp)
  rwa [List.dropLast_concat] at hparent

/-- Putting something into a directory, in the place of no other directory, leaves everything in a
directory. -/
theorem Closed.put (h : t.Closed) {l : Location} {n : String} (hl : t.node? l = some .directory)
    (hn : t.node? (l ++ [n]) ≠ some .directory) (node : Node) :
    (t.put (l ++ [n]) node).Closed := by
  intro k m hk
  have hparent : t.node? k = some .directory := by
    by_cases hkm : k ++ [m] = l ++ [n]
    · rwa [List.append_inj_left' hkm rfl]
    · rw [node?_put_of_ne t hkm] at hk
      exact h k m hk
  by_cases hkn : k = l ++ [n]
  · rw [hkn] at hparent
    exact absurd hparent hn
  · rwa [node?_put_of_ne t hkn]

/-- Where no file stands, there is a directory or nothing. -/
theorem node?_of_file?_eq_none {l : Location} (h : t.file? l = none) :
    t.node? l = none ∨ t.node? l = some .directory := by
  unfold file? at h
  split at h
  · cases h
  · next hfile =>
    cases hnode : t.node? l with
    | none => exact .inl rfl
    | some node =>
      cases node with
      | directory => exact .inr rfl
      | file f => exact absurd hnode (hfile f)

/-! ## Following steps -/

/-- Steps are followed one part after the other. -/
theorem walk_append {l k : Location} {steps : List Step} (h : t.walk l steps = .ok k)
    (more : List Step) : t.walk l (steps ++ more) = t.walk k more := by
  induction steps generalizing l with
  | nil => rw [← Except.ok.inj h, List.nil_append]
  | cons step steps ih =>
    obtain ⟨hl, hshort, hrest⟩ := of_walk_cons h
    rw [List.cons_append, walk_cons hl hshort]
    exact ih hrest

/-- What is followed to the end is followed up to any place in between. -/
theorem exists_of_walk_append {l k : Location} {steps more : List Step}
    (h : t.walk l (steps ++ more) = .ok k) :
    ∃ m, t.walk l steps = .ok m ∧ t.walk m more = .ok k := by
  induction steps generalizing l with
  | nil => exact ⟨l, rfl, h⟩
  | cons step steps ih =>
    obtain ⟨hl, hshort, hrest⟩ := of_walk_cons h
    rw [walk_cons hl hshort]
    exact ih hrest

/-- Steps can still be followed where no directory has gone. -/
theorem walk_of_directories {l k : Location} {steps : List Step}
    (hkept : ∀ l, t.node? l = some .directory → t'.node? l = some .directory)
    (h : t.walk l steps = .ok k) : t'.walk l steps = .ok k := by
  induction steps generalizing l with
  | nil => exact h
  | cons step steps ih =>
    obtain ⟨hl, hshort, hrest⟩ := of_walk_cons h
    rw [walk_cons (hkept l hl) hshort]
    exact ih hrest

/-- A step that does not go up adds its name to the location. -/
theorem arrive_append {step : Step} (h : .up ≠ step) (l : Location) (steps : List Step) :
    step.arrive l ++ steps.filterMap Step.name? = l ++ (step :: steps).filterMap Step.name? := by
  cases step with
  | here => rfl
  | up => exact absurd rfl h
  | name n => exact List.append_assoc l [n] _

/-- What lies behind a step that does not go up lies behind the location, too. -/
theorem exists_prefix_arrive {step : Step} (h : .up ≠ step) (l : Location) {steps : List Step}
    {q : List String} (hq : q <+: steps.filterMap Step.name?) :
    ∃ q', q' <+: (step :: steps).filterMap Step.name? ∧ step.arrive l ++ q = l ++ q' := by
  cases step with
  | here => exact ⟨q, hq, rfl⟩
  | up => exact absurd rfl h
  | name n => exact ⟨n :: q, List.cons_prefix_cons.2 ⟨rfl, hq⟩, List.append_assoc l [n] q⟩

/-- Steps that never go up can be followed where directories stand all along. -/
theorem walk_names {l : Location} {steps : List Step} (hup : .up ∉ steps)
    (hshort : ∀ n, .name n ∈ steps → n.utf8ByteSize ≤ 255)
    (hdirectories : ∀ q, q <+: steps.filterMap Step.name? →
      t.node? (l ++ q) = some .directory) :
    t.walk l steps = .ok (l ++ steps.filterMap Step.name?) := by
  induction steps generalizing l with
  | nil => exact congrArg _ (List.append_nil l).symm
  | cons step steps ih =>
    rw [List.mem_cons, not_or] at hup
    have hl := hdirectories [] List.nil_prefix
    rw [List.append_nil] at hl
    rw [walk_cons hl fun n hn => hshort n (hn ▸ .head _), ← arrive_append hup.1]
    refine ih hup.2 (fun n hn => hshort n (.tail _ hn)) fun q hq => ?_
    obtain ⟨q', hq', heq⟩ := exists_prefix_arrive hup.1 l hq
    rw [heq]
    exact hdirectories q' hq'

/-- No step is taken from where nothing stands. -/
theorem walk_of_none {l : Location} (h : t.node? l = none) (step : Step) (steps : List Step) :
    t.walk l (step :: steps) = .error .notFound := by
  simp only [walk, h]

/-- Steps that never go up lead nowhere from where nothing stands. -/
theorem walk_missing {l : Location} {steps : List Step} (hup : .up ∉ steps)
    (hshort : ∀ n, .name n ∈ steps → n.utf8ByteSize ≤ 255)
    (hfree : ∀ q, q <+: steps.filterMap Step.name? → t.file? (l ++ q) = none)
    (hmissing : t.node? (l ++ steps.filterMap Step.name?) = none) (step : Step) :
    t.walk l (steps ++ [step]) = .error .notFound := by
  induction steps generalizing l with
  | nil =>
    rw [List.filterMap_nil, List.append_nil] at hmissing
    exact walk_of_none hmissing step []
  | cons first steps ih =>
    rw [List.mem_cons, not_or] at hup
    have hl := hfree [] List.nil_prefix
    rw [List.append_nil] at hl
    rcases node?_of_file?_eq_none hl with hl | hl
    · exact walk_of_none hl first _
    · rw [← arrive_append hup.1] at hmissing
      rw [List.cons_append, walk_cons hl fun n hn => hshort n (hn ▸ .head _)]
      refine ih hup.2 (fun n hn => hshort n (.tail _ hn)) (fun q hq => ?_) hmissing
      obtain ⟨q', hq', heq⟩ := exists_prefix_arrive hup.1 l hq
      rw [heq]
      exact hfree q' hq'

/-- The names along steps that can be followed are short. -/
theorem short_of_walk {l k : Location} {steps : List Step} (h : t.walk l steps = .ok k) {n : String}
    (hn : .name n ∈ steps) : n.utf8ByteSize ≤ 255 := by
  induction steps generalizing l with
  | nil => cases hn
  | cons step steps ih =>
    obtain ⟨-, hshort, hrest⟩ := of_walk_cons h
    rcases List.mem_cons.1 hn with hstep | hn
    · exact hshort n hstep.symm
    · exact ih hrest hn

/-- A path that can be followed fits. -/
theorem fits_of_follow {cwd l : Location} {p : Path} (h : t.follow cwd p = .ok l) : p.Fits := by
  have hwalk := walk_of_follow h
  unfold follow at h
  split at h
  · cases h
  split at h
  · cases h
  next hplain =>
    split at h
    · cases h
    next hsize =>
      refine ⟨fun n hn => ?_, Bool.eq_false_iff.2 hplain, Nat.not_le.1 hsize⟩
      obtain ⟨step, hstep, hname⟩ := List.mem_filterMap.1 hn
      cases step with
      | here | up => cases hname
      | name m =>
        obtain rfl : m = n := Option.some.inj hname
        exact short_of_walk hwalk hstep

/-- A path that fits is followed along its steps. -/
theorem follow_eq {p : Path} (hfits : p.Fits) (hne : p.steps ≠ []) (t : Tree) (cwd : Location) :
    t.follow cwd p = t.walk (p.start cwd) p.steps := by
  have hempty : p.isEmpty = false := by
    unfold Path.isEmpty
    simp [hne]
  unfold follow
  rw [hempty, hfits.plain, if_neg (Nat.not_le.2 hfits.short)]
  rfl

/-! ## Making directories -/

/-- A tree with directories made along names below a location, and otherwise as it was. -/
structure Made (t t' : Tree) (root : Location) (names : List String) : Prop where
  closed : t'.Closed
  made : ∀ q, q <+: names → t'.node? (root ++ q) = some .directory
  kept : ∀ l, (∀ q, q <+: names → l ≠ root ++ q) → t'.node? l = t.node? l

/-- Where directories stand along all names, there are none to make. -/
theorem Made.of_directory (hclosed : t.Closed) {root : Location} {names : List String}
    (h : t.node? (root ++ names) = some .directory) : Made t t root names := by
  refine ⟨hclosed, fun q hq => ?_, fun l _ => rfl⟩
  obtain ⟨rest, rfl⟩ := hq
  by_cases hrest : rest = []
  · rwa [hrest, List.append_nil] at h
  · rw [← List.append_assoc] at h
    exact hclosed.above hrest (by rw [h]; nofun)

/-- Directories stay directories. -/
theorem Made.directory {root : Location} {names : List String} (h : Made t t' root names)
    {l : Location} (hl : t.node? l = some .directory) : t'.node? l = some .directory := by
  by_cases halong : ∃ q, q <+: names ∧ l = root ++ q
  · obtain ⟨q, hq, rfl⟩ := halong
    exact h.made q hq
  · rw [h.kept l fun q hq heq => halong ⟨q, hq, heq⟩, hl]

/-- What names lead to on the way is not what they lead to with one more behind them. -/
theorem append_ne_of_along {root : Location} {names q : List String} (hq : q <+: names)
    (n : String) : root ++ q ≠ root ++ names ++ [n] := by
  intro heq
  rw [List.append_assoc] at heq
  have hlength := congrArg List.length (List.append_cancel_left heq)
  have hle := hq.length_le
  rw [List.length_append, List.length_singleton] at hlength
  omega

/-- One more directory is made below the others. -/
theorem Made.put {root : Location} {names : List String} (h : Made t t' root names) {n : String}
    (hnone : t'.node? (root ++ names ++ [n]) = none) :
    Made t (t'.put (root ++ names ++ [n]) .directory) root (names ++ [n]) := by
  have hparent := h.made names (List.prefix_refl names)
  refine ⟨h.closed.put hparent (by rw [hnone]; nofun) .directory, fun q hq => ?_, fun l hl => ?_⟩
  · rcases List.prefix_concat_iff.1 hq with rfl | hq
    · rw [← List.append_assoc]
      exact node?_put_self t' (by simp) _
    · rw [node?_put_of_ne t' (append_ne_of_along hq n), h.made q hq]
  · rw [node?_put_of_ne t', h.kept l fun q hq => hl q (hq.trans (List.prefix_append _ _))]
    rw [List.append_assoc]
    exact hl _ (List.prefix_refl _)

/-- Where there is a directory already, making one leaves the tree as it is. -/
theorem makeDirectoryAfter_of_directory {cwd l : Location} {p : Path}
    (hfollow : t.follow cwd p = .ok l) (hl : t.node? l = some .directory)
    (above : Tree → Except FileError Unit × Tree) :
    makeDirectoryAfter above t cwd p = (.ok (), t) := by
  have hmake : t.makeDirectory cwd p = .error .alreadyExists := by
    unfold makeDirectory
    rw [hfollow]
    dsimp only [bind, Except.bind]
    split
    · rw [hl]
      rfl
    · rfl
  have hdirectory : t.isDirectory cwd p = true := by
    rw [isDirectory, stat_of_directory hfollow hl]
  unfold makeDirectoryAfter
  rw [hmake]
  dsimp only
  rw [hdirectory]
  rfl

/-- Where nothing is, below a directory, one is made. -/
theorem makeDirectory_of_none {cwd l : Location} {p : Path} {n : String}
    (hfollow : t.follow cwd p = .ok l) (hlast : p.steps.getLast? = some (.name n))
    (hl : t.node? l = none) : t.makeDirectory cwd p = .ok (t.put l .directory) := by
  unfold makeDirectory
  rw [hfollow]
  dsimp only [bind, Except.bind]
  rw [hlast, hl]
  rfl

/-- A way on which directories can be made: the steps of `fixed` lead to a directory, and those of
`rest` descend from it and meet no file. -/
structure Way (t : Tree) (start root : Location) (fixed rest : List Step) : Prop where
  reached : t.walk start fixed = .ok root
  directory : t.node? root = some .directory
  descends : .up ∉ rest
  free : ∀ q, q <+: rest.filterMap Step.name? → t.file? (root ++ q) = none

/-- A way is one without its last step, too. -/
theorem Way.of_concat {start root : Location} {fixed rest : List Step} {step : Step}
    (h : Way t start root fixed (rest ++ [step])) : Way t start root fixed rest := by
  refine ⟨h.reached, h.directory, fun hup => h.descends (List.mem_append_left _ hup),
    fun q hq => h.free q (hq.trans ?_)⟩
  rw [List.filterMap_append]
  exact List.prefix_append _ _

/-- Once the directories on a way are made, it can be followed to its last name. -/
theorem Made.follow {cwd root : Location} {p : Path} {fixed rest : List Step} {n : String}
    (hmade : Made t t' root (rest.filterMap Step.name?))
    (hway : Way t (p.start cwd) root fixed rest)
    (hp : p.steps = fixed ++ (rest ++ [.name n])) (hfits : p.Fits) :
    t'.follow cwd p = .ok (root ++ rest.filterMap Step.name? ++ [n]) := by
  have hshort : ∀ m, .name m ∈ rest ++ [.name n] → m.utf8ByteSize ≤ 255 := fun m hm =>
    hfits.short_of_steps hp hm
  have hreached := walk_of_directories (fun l hl => hmade.directory hl) hway.reached
  have halong := walk_names hway.descends (fun m hm => hshort m (List.mem_append_left _ hm)) hmade.made
  have hlast : ∀ m, (.name n : Step) = .name m → m.utf8ByteSize ≤ 255 := fun m hm =>
    hshort m (hm ▸ List.mem_append_right _ (.head _))
  rw [follow_eq hfits (by rw [hp]; simp), hp, walk_append hreached, walk_append halong,
    walk_cons (hmade.made _ (List.prefix_refl _)) hlast]
  rfl

/-- The place behind the directories of a way is as it was. -/
theorem Made.node?_last {root : Location} {names : List String} (hmade : Made t t' root names)
    (n : String) : t'.node? (root ++ names ++ [n]) = t.node? (root ++ names ++ [n]) :=
  hmade.kept _ fun _ hq heq => append_ne_of_along hq n heq.symm

/-- The last directory of a way is made once the others are. -/
theorem Made.exists_makeDirectory {cwd root : Location} {p : Path} {fixed rest : List Step}
    {n : String} (hmade : Made t t' root (rest.filterMap Step.name?))
    (hway : Way t (p.start cwd) root fixed rest)
    (hp : p.steps = fixed ++ (rest ++ [.name n])) (hfits : p.Fits)
    (hnone : t.node? (root ++ rest.filterMap Step.name? ++ [n]) = none) :
    ∃ t'', t'.makeDirectory cwd p = .ok t'' ∧
      Made t t'' root ((rest ++ [Step.name n]).filterMap Step.name?) := by
  have hfollow := hmade.follow hway hp hfits
  have hlast : p.steps.getLast? = some (.name n) := by
    rw [hp, ← List.append_assoc, List.getLast?_concat]
  rw [← hmade.node?_last] at hnone
  refine ⟨_, makeDirectory_of_none hfollow hlast hnone, ?_⟩
  rw [List.filterMap_append]
  exact hmade.put hnone

/-- A part that leads nowhere adds no step to a path but a dot. -/
theorem of_isIdle {absolute : Bool} {part : String} {before : List String}
    (h : Path.isIdle absolute part before = true) :
    Path.stepOf? part = none ∨ Path.stepOf? part = some .here := by
  unfold Path.isIdle at h
  rcases Bool.or_eq_true_iff.1 h with hempty | hdot
  · exact .inl (if_pos (eq_of_beq hempty))
  · obtain ⟨hdot, -⟩ := Bool.and_eq_true_iff.1 hdot
    rw [eq_of_beq hdot]
    exact .inr rfl

/-- A part that leads somewhere is a step, and it is a dot only if it comes first. -/
theorem of_not_isIdle {absolute : Bool} {part : String} {before : List String}
    (h : Path.isIdle absolute part before = false) :
    ∃ step, Path.stepOf? part = some step ∧ (step = .here → before = []) := by
  unfold Path.isIdle at h
  obtain ⟨hempty, hdot⟩ := Bool.or_eq_false_iff.1 h
  rw [beq_eq_false_iff_ne] at hempty
  unfold Path.stepOf?
  rw [if_neg hempty]
  split
  · next hpart =>
    refine ⟨_, rfl, fun _ => ?_⟩
    rw [hpart] at hdot
    cases before with
    | nil => rfl
    | cons b before => simp at hdot
  · split
    · exact ⟨_, rfl, nofun⟩
    · exact ⟨_, rfl, nofun⟩

/-- A way on which the last step stays is one without it. -/
theorem Way.of_here {start root : Location} {steps fixed rest : List Step}
    (h : Way t start root fixed rest) (hsteps : steps ++ [.here] = fixed ++ rest) :
    ∃ fixed' rest', steps = fixed' ++ rest' ∧ Way t start root fixed' rest' ∧
      rest'.filterMap Step.name? = rest.filterMap Step.name? := by
  rcases List.eq_nil_or_concat' rest with rfl | ⟨rest', step, rfl⟩
  · rw [List.append_nil] at hsteps
    have hreached := h.reached
    rw [← hsteps] at hreached
    obtain ⟨m, hm, hlast⟩ := exists_of_walk_append hreached
    obtain ⟨-, -, hroot⟩ := of_walk_cons hlast
    obtain rfl : m = root := Except.ok.inj hroot
    exact ⟨steps, [], (List.append_nil _).symm, ⟨hm, h.directory, h.descends, h.free⟩, rfl⟩
  · rw [← List.append_assoc] at hsteps
    obtain ⟨rfl, hstep⟩ := List.append_inj' hsteps rfl
    obtain rfl : Step.here = step := (List.cons.inj hstep).1
    refine ⟨fixed, rest', rfl, h.of_concat, ?_⟩
    rw [List.filterMap_append]
    exact (List.append_nil _).symm

/-- A directory is made where there is none yet, after those above it if they are missing. -/
theorem exists_makeDirectoryAfter_name (hclosed : t.Closed) {cwd root : Location} {p : Path}
    {fixed rest : List Step} {n : String} (hp : p.steps = fixed ++ (rest ++ [.name n]))
    (hway : Way t (p.start cwd) root fixed rest) (hfits : p.Fits)
    (hnone : t.node? (root ++ rest.filterMap Step.name? ++ [n]) = none)
    {above : Tree → Except FileError Unit × Tree}
    (habove : ∃ t', above t = (.ok (), t') ∧ Made t t' root (rest.filterMap Step.name?)) :
    ∃ t', makeDirectoryAfter above t cwd p = (.ok (), t') ∧
      Made t t' root ((rest ++ [Step.name n]).filterMap Step.name?) := by
  unfold makeDirectoryAfter
  rcases node?_of_file?_eq_none (hway.free _ (List.prefix_refl _)) with hmissing | hparent
  · have hshort : ∀ m, .name m ∈ rest → m.utf8ByteSize ≤ 255 := fun m hm =>
      hfits.short_of_steps hp (List.mem_append_left _ hm)
    have hfirst : t.makeDirectory cwd p = .error .notFound := by
      unfold makeDirectory
      rw [follow_eq hfits (by rw [hp]; simp), hp, walk_append hway.reached,
        walk_missing hway.descends hshort hway.free hmissing]
      rfl
    obtain ⟨t', ht', hmade⟩ := habove
    obtain ⟨t'', hmake, hmade'⟩ := hmade.exists_makeDirectory hway hp hfits hnone
    refine ⟨t'', ?_, hmade'⟩
    simp only [hfirst, ht', hmake]
  · have hmade := Made.of_directory hclosed hparent
    obtain ⟨t'', hmake, hmade'⟩ := hmade.exists_makeDirectory hway hp hfits hnone
    refine ⟨t'', ?_, hmade'⟩
    simp only [hmake]

/-- The last directory of a way can be made, if those above it can. A dot may only be there as the
first step. -/
theorem exists_makeDirectoryAfter (hclosed : t.Closed) {cwd root : Location} {p : Path}
    {fixed rest : List Step} (hp : p.steps = fixed ++ rest) (hne : p.steps ≠ [])
    (hway : Way t (p.start cwd) root fixed rest) (hfits : p.Fits)
    (hdot : ∀ rest', rest = rest' ++ [.here] → rest' = [])
    {above : Tree → Except FileError Unit × Tree}
    (habove : ∀ rest' n, rest = rest' ++ [.name n] →
      ∃ t', above t = (.ok (), t') ∧ Made t t' root (rest'.filterMap Step.name?)) :
    ∃ t', makeDirectoryAfter above t cwd p = (.ok (), t') ∧
      Made t t' root (rest.filterMap Step.name?) := by
  rcases node?_of_file?_eq_none (hway.free _ (List.prefix_refl _)) with hnone | hdirectory
  · rcases List.eq_nil_or_concat' rest with rfl | ⟨rest', step, rfl⟩
    · rw [List.filterMap_nil, List.append_nil, hway.directory] at hnone
      cases hnone
    cases step with
    | here =>
      obtain rfl := hdot rest' rfl
      have hroot : root ++ ([] ++ [Step.here]).filterMap Step.name? = root := List.append_nil _
      rw [hroot, hway.directory] at hnone
      cases hnone
    | up => exact absurd (List.mem_append_right _ (.head _)) hway.descends
    | name n =>
      rw [List.filterMap_append, ← List.append_assoc] at hnone
      exact exists_makeDirectoryAfter_name hclosed hp hway.of_concat hfits hnone (habove rest' n rfl)
  · have hmade := Made.of_directory hclosed hdirectory
    have hshort : ∀ n, .name n ∈ rest → n.utf8ByteSize ≤ 255 := fun n hn =>
      hfits.short_of_steps hp hn
    have hfollow : t.follow cwd p = .ok (root ++ rest.filterMap Step.name?) := by
      rw [follow_eq hfits hne, hp, walk_append hway.reached,
        walk_names hway.descends hshort hmade.made]
    exact ⟨t, makeDirectoryAfter_of_directory hfollow hdirectory above, hmade⟩

/-- The directories on a way can be made from the last one up. -/
theorem exists_makeDirectoriesUp (hclosed : t.Closed) {cwd root : Location} {absolute : Bool}
    {parts : List String} {fixed rest : List Step}
    (hsteps : Path.steps ⟨absolute, parts.reverse⟩ = fixed ++ rest)
    (hway : Way t (Path.start cwd ⟨absolute, parts⟩) root fixed rest)
    (hfits : Path.Fits ⟨absolute, parts.reverse⟩) :
    ∃ t', makeDirectoriesUp cwd absolute parts t = (.ok (), t') ∧
      Made t t' root (rest.filterMap Step.name?) := by
  induction parts generalizing root fixed rest with
  | nil =>
    obtain ⟨rfl, rfl⟩ := List.append_eq_nil_iff.1 hsteps.symm
    exact ⟨t, rfl, .of_directory hclosed (by simpa using hway.directory)⟩
  | cons part before ih =>
    rw [List.reverse_cons] at hsteps hfits
    have hparts : Path.steps ⟨absolute, before.reverse ++ [part]⟩ =
        Path.steps ⟨absolute, before.reverse⟩ ++ [part].filterMap Path.stepOf? :=
      List.filterMap_append
    rw [makeDirectoriesUp]
    cases hidle : Path.isIdle absolute part before with
    | true =>
      rw [if_pos rfl]
      rcases of_isIdle hidle with hpart | hpart
      · rw [hparts, List.filterMap_cons_none hpart, List.filterMap_nil, List.append_nil] at hsteps
        exact ih hsteps hway hfits.of_append
      · rw [hparts, List.filterMap_cons_some hpart, List.filterMap_nil] at hsteps
        obtain ⟨fixed', rest', hsteps', hway', hnames⟩ := hway.of_here hsteps
        rw [← hnames]
        exact ih hsteps' hway' hfits.of_append
    | false =>
      rw [if_neg Bool.false_ne_true, List.reverse_cons]
      obtain ⟨step, hpart, hdot⟩ := of_not_isIdle hidle
      rw [List.filterMap_cons_some hpart, List.filterMap_nil] at hparts
      refine exists_makeDirectoryAfter hclosed hsteps (by rw [hparts]; simp) hway hfits ?_ ?_
      · rintro rest' rfl
        rw [hparts, ← List.append_assoc] at hsteps
        obtain ⟨hbefore, hstep⟩ := List.append_inj' hsteps rfl
        rw [hdot (List.cons.inj hstep).1] at hbefore
        exact (List.append_eq_nil_iff.1 hbefore.symm).2
      · rintro rest' n rfl
        rw [hparts, ← List.append_assoc] at hsteps
        obtain ⟨hbefore, -⟩ := List.append_inj' hsteps rfl
        exact ih hbefore hway.of_concat hfits.of_append

/-- Slashes at the end of a path do not count on the way up. -/
theorem settle_append_of_empty (absolute : Bool) {idle : List String}
    (hidle : ∀ part ∈ idle, part = "") (parts : List String) :
    Path.settle absolute (idle ++ parts) = Path.settle absolute parts := by
  induction idle with
  | nil => rfl
  | cons part idle ih =>
    rw [List.forall_mem_cons] at hidle
    rw [List.cons_append, Path.settle, if_pos (by simp [Path.isIdle, hidle.1])]
    exact ih hidle.2

/-- The directories above the last name of a path can be made. -/
theorem exists_makeParents (hclosed : t.Closed) {cwd root : Location} {p : Path}
    {before idle : List String} {n : String} {fixed rest : List Step}
    (hparts : p.parts = before ++ n :: idle) (hn : Path.stepOf? n = some (.name n))
    (hidle : ∀ part ∈ idle, part = "") (hsteps : before.filterMap Path.stepOf? = fixed ++ rest)
    (hway : Way t (p.start cwd) root fixed rest) (hfits : p.Fits) :
    ∃ t', t.makeParents cwd p = (.ok (), t') ∧ Made t t' root (rest.filterMap Step.name?) := by
  have hbusy : Path.isIdle p.absolute n before.reverse = false := by
    by_contra hbusy
    rcases of_isIdle (Bool.not_eq_false _ ▸ hbusy) with hnone | hhere
    · rw [hn] at hnone
      cases hnone
    · rw [hn] at hhere
      cases hhere
  have hsettled : (Path.settle p.absolute p.parts.reverse).tail = before.reverse := by
    have hreverse : p.parts.reverse = idle.reverse ++ n :: before.reverse := by
      rw [hparts, List.reverse_append, List.reverse_cons, List.append_assoc, List.singleton_append]
    rw [hreverse, settle_append_of_empty _ (by simpa using hidle), Path.settle, hbusy]
    rfl
  have hp : p = ⟨p.absolute, before ++ n :: idle⟩ := by rw [← hparts]
  rw [hp] at hfits
  unfold makeParents
  rw [hsettled]
  have hbefore : before.reverse.reverse = before := List.reverse_reverse before
  refine exists_makeDirectoriesUp hclosed ?_ hway ?_
  · rw [hbefore]
    exact hsteps
  · rw [hbefore]
    exact hfits.of_append

end Tree

end Files

end ReactorDeploy
