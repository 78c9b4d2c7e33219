import ReactorDeploy.Proofs.Toml.Values

/-!
# Values stay

A value that stands in a table is there for good: no later pair or header of a document takes its
place or changes it, since each of them is refused where its path meets a value
(`Entries.Holds.addPair`, `Entries.Holds.addSection`). So the data of a document has every value
that an earlier part of it has put there.
-/

namespace ReactorDeploy.Toml

namespace Entries

variable {es es' : Entries} {key key' : String} {d : Data}

/-- What is put under a key is looked up there. -/
theorem lookup_put_self (es : Entries) (key : String) (node : Node) :
    (es.put key node).lookup key = some node := by
  induction es with
  | nil => exact List.lookup_cons_self
  | cons e es ih =>
    obtain ⟨k, n⟩ := e
    rw [put]
    split
    · next h => rw [h, List.lookup_cons_self]
    · next h => rwa [List.lookup_cons, beq_eq_false_iff_ne.2 fun heq => h heq.symm]

/-- Other keys are looked up as before. -/
theorem lookup_put_of_ne (es : Entries) (h : key' ≠ key) (node : Node) :
    (es.put key node).lookup key' = es.lookup key' := by
  induction es with
  | nil => rw [put, List.lookup_cons, beq_eq_false_iff_ne.2 h]
  | cons e es ih =>
    obtain ⟨k, n⟩ := e
    rw [put]
    split
    · next hk =>
      have hne : (key' == k) = false := beq_eq_false_iff_ne.2 fun heq => h (heq.trans hk)
      rw [List.lookup_cons, List.lookup_cons, hne]
    · rw [List.lookup_cons, List.lookup_cons, ih]

/-- Whether a value stands below a table, at the end of a path through tables. -/
def Holds (d : Data) : List String → String → Entries → Prop
  | [], key, es => es.lookup key = some (.value d)
  | table :: path, key, es =>
    ∃ origin sub, es.lookup table = some (.table origin sub) ∧ Holds d path key sub

/-- Whether every value of a table stands in another one, too. -/
def Keeps (es es' : Entries) : Prop :=
  ∀ (d : Data) (path : List String) (key : String), Holds d path key es → Holds d path key es'

theorem Keeps.refl (es : Entries) : Keeps es es :=
  fun _ _ _ h => h

theorem Keeps.trans {es'' : Entries} (h : Keeps es es') (h' : Keeps es' es'') : Keeps es es'' :=
  fun d path key hd => h' d path key (h d path key hd)

/-- What is put in the place of nothing, or of a series, takes no value away. -/
theorem keeps_put (hvalue : ∀ d, es.lookup key ≠ some (.value d))
    (htable : ∀ origin sub, es.lookup key ≠ some (.table origin sub)) (node : Node) :
    Keeps es (es.put key node) := by
  intro d path key' h
  cases path with
  | nil =>
    have hne : key' ≠ key := by
      rintro rfl
      exact hvalue d h
    exact (lookup_put_of_ne es hne node).trans h
  | cons table path =>
    obtain ⟨origin, sub, hlookup, h⟩ := h
    have hne : table ≠ key := by
      rintro rfl
      exact htable origin sub hlookup
    exact ⟨origin, sub, (lookup_put_of_ne es hne node).trans hlookup, h⟩

theorem keeps_put_of_none (h : es.lookup key = none) (node : Node) : Keeps es (es.put key node) :=
  keeps_put (by simp [h]) (by simp [h]) node

theorem keeps_put_of_series {tables : List Entries} (h : es.lookup key = some (.series tables))
    (node : Node) : Keeps es (es.put key node) :=
  keeps_put (by simp [h]) (by simp [h]) node

/-- A table that is put in the place of one whose values it keeps takes none away. -/
theorem Keeps.put {sub sub' : Entries} (hsub : Keeps sub sub') {origin : Origin}
    (hlookup : es.lookup key = some (.table origin sub)) (origin' : Origin) :
    Keeps es (es.put key (.table origin' sub')) := by
  intro d path key' h
  cases path with
  | nil =>
    have hne : key' ≠ key := by
      rintro rfl
      rw [Holds, hlookup] at h
      cases h
    exact (lookup_put_of_ne es hne _).trans h
  | cons table path =>
    obtain ⟨origin₁, sub₁, hlookup₁, h⟩ := h
    by_cases hne : table = key
    · subst hne
      rw [hlookup] at hlookup₁
      cases hlookup₁
      exact ⟨origin', sub', lookup_put_self es table _, hsub d path key' h⟩
    · exact ⟨origin₁, sub₁, (lookup_put_of_ne es hne _).trans hlookup₁, h⟩

/-- Entries that are added behind others take no value away. -/
theorem keeps_append (es more : Entries) : Keeps es (es ++ more) := by
  have hlookup : ∀ {key node}, es.lookup key = some node → (es ++ more).lookup key = some node := by
    intro key node h
    rw [List.lookup_append, h, Option.some_or]
  intro d path key h
  cases path with
  | nil => exact hlookup h
  | cons table path =>
    obtain ⟨origin, sub, htable, h⟩ := h
    exact ⟨origin, sub, hlookup htable, h⟩

/-- Changing a table keeps every value if it keeps those of that table. -/
theorem keeps_updateAt {made : Origin} {f : Origin → Entries → Option Entries}
    (hf : ∀ origin es es', f origin es = some es' → Keeps es es') {path : List String}
    {origin : Origin} (h : updateAt made f path origin es = some es') : Keeps es es' := by
  induction path generalizing origin es es' with
  | nil => exact hf origin es es' h
  | cons key path ih =>
    rw [updateAt] at h
    split at h
    · next hnone =>
      obtain ⟨sub, -, h⟩ := Option.bind_eq_some_iff.1 h
      cases h
      exact keeps_put_of_none hnone _
    · cases h
    · next hlookup =>
      split at h
      · cases h
      · obtain ⟨sub, hsub, h⟩ := Option.bind_eq_some_iff.1 h
        cases h
        exact (ih hsub).put hlookup _
    · next hlookup =>
      obtain ⟨latest, -, h⟩ := Option.bind_eq_some_iff.1 h
      obtain ⟨sub, -, h⟩ := Option.bind_eq_some_iff.1 h
      cases h
      exact keeps_put_of_series hlookup _

/-- A pair keeps every value. -/
theorem keeps_addPair {parents : List String} (h : es.addPair parents key d = some es') :
    Keeps es es' := by
  refine keeps_updateAt (fun origin es es' h => ?_) h
  split at h
  · cases h
  · split at h
    · cases h
    · cases h
      exact keeps_append es _

/-- Pairs keep every value. -/
theorem keeps_addPairs {pairs : List (Key × Data)} (h : es.addPairs pairs = some es') :
    Keeps es es' :=
  foldlM_preserves (p := fun b => Keeps es b)
    (fun _ _ _ _ hkept hstep => hkept.trans (keeps_addPair hstep)) (Keeps.refl es) h

/-- A table that is filled under its header is put among the entries. -/
theorem exists_of_put_addPairs {start : Entries} {pairs : List (Key × Data)} {node : Entries → Node}
    (h : (start.addPairs pairs).bind (fun entries => some (es.put key (node entries))) = some es') :
    ∃ entries, start.addPairs pairs = some entries ∧ es.put key (node entries) = es' := by
  obtain ⟨entries, hentries, h⟩ := Option.bind_eq_some_iff.1 h
  exact ⟨entries, hentries, Option.some.inj h⟩

/-- A section keeps every value. -/
theorem keeps_addSection {s : Section} (h : es.addSection s = some es') : Keeps es es' := by
  unfold addSection at h
  split at h
  · refine keeps_updateAt (fun _ es es' h => ?_) h
    dsimp only at h
    split at h
    · next hnone =>
      obtain ⟨entries, -, rfl⟩ := exists_of_put_addPairs h
      exact keeps_put_of_none hnone _
    · next hlookup =>
      obtain ⟨entries, hentries, rfl⟩ := exists_of_put_addPairs h
      exact (keeps_addPairs hentries).put hlookup _
    · cases h
  · refine keeps_updateAt (fun _ es es' h => ?_) h
    dsimp only at h
    split at h
    · next hnone =>
      obtain ⟨entries, -, rfl⟩ := exists_of_put_addPairs h
      exact keeps_put_of_none hnone _
    · next hlookup =>
      obtain ⟨entries, -, rfl⟩ := exists_of_put_addPairs h
      exact keeps_put_of_series hlookup _
    · cases h

/-- Sections keep every value. -/
theorem keeps_addSections {sections : List Section} (h : sections.foldlM addSection es = some es') :
    Keeps es es' :=
  foldlM_preserves (p := fun b => Keeps es b)
    (fun _ _ _ _ hkept hstep => hkept.trans (keeps_addSection hstep)) (Keeps.refl es) h

/-- A pair without dots is among the entries that it is added to. -/
theorem holds_addPair (h : es.addPair [] key d = some es') : Holds d [] key es' := by
  cases hlookup : es.lookup key with
  | none =>
    rw [addPair_of_lookup hlookup] at h
    cases h
    exact lookup_last hlookup _
  | some node => simp [addPair, updateAt, hlookup] at h

/-- The first pair of a table that is opened by its header stands in it. -/
theorem holds_addSection {table : String} {more : List (Key × Data)}
    (h : es.addSection ⟨.table ⟨[], table⟩, (⟨[], key⟩, d) :: more⟩ = some es') :
    Holds d [table] key es' := by
  have hfirst : ∀ {start entries : Entries},
      start.addPairs ((⟨[], key⟩, d) :: more) = some entries → Holds d [] key entries := by
    intro start entries h
    obtain ⟨first, hadd, h⟩ := Option.bind_eq_some_iff.1 h
    exact keeps_addPairs h d [] key (holds_addPair hadd)
  unfold addSection updateAt at h
  dsimp only at h
  split at h
  · obtain ⟨entries, hentries, rfl⟩ := exists_of_put_addPairs h
    exact ⟨_, entries, lookup_put_self es table _, hfirst hentries⟩
  · obtain ⟨entries, hentries, rfl⟩ := exists_of_put_addPairs h
    exact ⟨_, entries, lookup_put_self es table _, hfirst hentries⟩
  · cases h

end Entries

/-- The first pair below the first header of a document is among its data, whatever follows. -/
theorem Document.exists_of_toData? {table key : String} {d data : Data} {more : List (Key × Data)}
    {sections : List Section} {root : List (Key × Data)}
    (h : Document.toData? ⟨root, ⟨.table ⟨[], table⟩, (⟨[], key⟩, d) :: more⟩ :: sections⟩ =
      some data) :
    ∃ entries sub, data = .table entries ∧ entries.lookup table = some (.table sub) ∧
      sub.lookup key = some d := by
  obtain ⟨start, -, h⟩ := Option.bind_eq_some_iff.1 h
  obtain ⟨es, hes, h⟩ := Option.bind_eq_some_iff.1 h
  cases h
  rw [List.foldlM_cons] at hes
  obtain ⟨first, hfirst, hes⟩ := Option.bind_eq_some_iff.1 hes
  obtain ⟨origin, sub, htable, hkey⟩ :=
    Entries.keeps_addSections hes _ _ _ (Entries.holds_addSection hfirst)
  refine ⟨_, Entries.toData sub, rfl, ?_, ?_⟩
  · rw [Entries.lookup_toData, htable]
    rfl
  · rw [Entries.lookup_toData, hkey]
    rfl

end ReactorDeploy.Toml
