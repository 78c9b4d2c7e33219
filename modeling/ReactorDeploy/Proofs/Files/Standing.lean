import ReactorDeploy.Proofs.Files.Path

/-!
# What stands in a tree

What is put at a location stands there, and everything elsewhere stays. A path that can be followed
leads to its goal (`eq_of_follow`).
-/

namespace ReactorDeploy.Files.Tree

/-- The file at a location, if one stands there. -/
def file? (t : Tree) (l : Location) : Option File :=
  match t.node? l with
  | some (.file f) => some f
  | _ => none

/-! ## One change -/

theorem lookup_putEntry (l l' : Location) (node : Node) (entries : List (Location × Node)) :
    (putEntry l node entries).lookup l' = if l' = l then some node else entries.lookup l' := by
  induction entries with
  | nil =>
    rw [putEntry, List.lookup_cons]
    split <;> simp_all
  | cons entry entries ih =>
    obtain ⟨k, old⟩ := entry
    rw [putEntry]
    by_cases hk : k = l
    · subst hk
      rw [if_pos rfl, List.lookup_cons, List.lookup_cons]
      split <;> simp_all
    · rw [if_neg hk, List.lookup_cons, List.lookup_cons, ih]
      split <;> simp_all

/-- What is put at a location stands there. -/
theorem node?_put_self (t : Tree) {l : Location} (hl : l ≠ []) (node : Node) :
    (t.put l node).node? l = some node := by
  rw [node?, put, if_neg (by simpa using hl), lookup_putEntry, if_pos rfl]

/-- Putting something at a location changes nothing elsewhere. -/
theorem node?_put_of_ne (t : Tree) {l l' : Location} (h : l' ≠ l) (node : Node) :
    (t.put l node).node? l' = t.node? l' := by
  rw [node?, node?, put, lookup_putEntry, if_neg h]

theorem file?_put_of_ne (t : Tree) {l l' : Location} (h : l' ≠ l) (node : Node) :
    (t.put l node).file? l' = t.file? l' := by
  rw [file?, file?, node?_put_of_ne t h]

/-! ## Where operations work -/

/-- Two operations one after the other succeed if each of them does. -/
theorem exists_of_bind {ε α β : Type} {x : Except ε α} {f : α → Except ε β} {b : β}
    (h : (x >>= f) = .ok b) : ∃ a, x = .ok a ∧ f a = .ok b := by
  cases x with
  | error e => cases h
  | ok a => exact ⟨a, rfl, h⟩

/-- A step is taken from a directory, unless it is a name that is too long. -/
theorem walk_cons {t : Tree} {l : Location} {step : Step} (hl : t.node? l = some .directory)
    (hshort : ∀ n, step = .name n → n.utf8ByteSize ≤ 255) (steps : List Step) :
    t.walk l (step :: steps) = t.walk (step.arrive l) steps := by
  simp only [walk, hl]
  cases step with
  | here | up => rfl
  | name n => exact if_neg (Nat.not_lt.2 (hshort n rfl))

/-- A step that is taken is taken from a directory, and is no name that is too long. -/
theorem of_walk_cons {t : Tree} {l k : Location} {step : Step} {steps : List Step}
    (h : t.walk l (step :: steps) = .ok k) :
    t.node? l = some .directory ∧ (∀ n, step = .name n → n.utf8ByteSize ≤ 255) ∧
      t.walk (step.arrive l) steps = .ok k := by
  unfold walk at h
  split at h
  · cases h
  · cases h
  · next hl =>
    cases step with
    | here | up => exact ⟨hl, nofun, h⟩
    | name n =>
      dsimp only at h
      split at h
      · cases h
      · next hshort =>
        refine ⟨hl, fun m hm => ?_, h⟩
        rw [← Step.name.inj hm]
        exact Nat.not_lt.1 hshort

/-- Steps that can be followed lead where they say. -/
theorem eq_of_walk {t : Tree} {l l' : Location} {steps : List Step}
    (h : t.walk l steps = .ok l') : l' = steps.foldl Step.arrive l := by
  induction steps generalizing l with
  | nil => exact (Except.ok.inj h).symm
  | cons step steps ih =>
    obtain ⟨-, -, hrest⟩ := of_walk_cons h
    exact ih hrest

/-- A path is followed along its steps. -/
theorem walk_of_follow {t : Tree} {cwd l : Location} {p : Path} (h : t.follow cwd p = .ok l) :
    t.walk (p.start cwd) p.steps = .ok l := by
  unfold follow at h
  split at h
  · cases h
  split at h
  · cases h
  split at h
  · cases h
  exact h

/-- A path that can be followed leads to its goal. -/
theorem eq_of_follow {t : Tree} {cwd l : Location} {p : Path} (h : t.follow cwd p = .ok l) :
    l = p.goal cwd :=
  eq_of_walk (walk_of_follow h)

/-- What is found where a path can be followed to. -/
theorem stat_of_follow {t : Tree} {cwd l : Location} {p : Path} (h : t.follow cwd p = .ok l) :
    t.stat cwd p = match t.node? l with
      | none => .error .notFound
      | some .directory => .ok (l, .directory)
      | some (.file f) => if p.trailingSlash then .error .notDirectory else .ok (l, .file f) := by
  rw [stat, h]
  rfl

/-- A directory that a path leads to is found. -/
theorem stat_of_directory {t : Tree} {cwd l : Location} {p : Path} (h : t.follow cwd p = .ok l)
    (hl : t.node? l = some .directory) : t.stat cwd p = .ok (l, .directory) := by
  rw [stat_of_follow h, hl]

/-- A file that a path leads to is found if the path does not end in a slash. -/
theorem stat_of_file {t : Tree} {cwd l : Location} {p : Path} {f : File}
    (h : t.follow cwd p = .ok l) (hl : t.node? l = some (.file f))
    (htrailing : p.trailingSlash = false) : t.stat cwd p = .ok (l, .file f) := by
  rw [stat_of_follow h, hl]
  dsimp only
  rw [htrailing]
  rfl

/-- What is found under a path stands where the path can be followed to. -/
theorem of_stat {t : Tree} {cwd l : Location} {p : Path} {node : Node}
    (h : t.stat cwd p = .ok (l, node)) : t.follow cwd p = .ok l ∧ t.node? l = some node := by
  obtain ⟨k, hfollow, -⟩ := exists_of_bind h
  rw [stat_of_follow hfollow] at h
  split at h
  · cases h
  · next hnode =>
    cases h
    exact ⟨hfollow, hnode⟩
  · next hnode =>
    split at h
    · cases h
    · cases h
      exact ⟨hfollow, hnode⟩

/-- What a path leads to stands at its goal. -/
theorem eq_of_stat {t : Tree} {cwd l : Location} {p : Path} {node : Node}
    (h : t.stat cwd p = .ok (l, node)) : l = p.goal cwd :=
  eq_of_follow (of_stat h).1

end ReactorDeploy.Files.Tree
