import ReactorDeploy.Proofs.Manifest.Tables
import ReactorDeploy.Proofs.Toml.Values

/-!
# Manifests read back

A manifest that is written is read back as the same manifest with three things filled in: options
that nobody chose are at their defaults, a board chosen to be none is no choice, and federates
without an ordinal have that of their position (`Manifest.parse_toToml`).

What is read from a text has these filled in already (`Manifest.readBack_of_parse`). Its integers
can be written, since TOML has no greater ones (`Manifest.isInteger_of_parse`); only ordinals are
made up by the reader, and they do not get beyond the number of federates.
-/

namespace ReactorDeploy

open Toml (IsInteger)

/-! ## What is read back -/

/-- The federate with the given position for its ordinal, unless it has one. -/
def Federate.placed (i : Nat) (f : Federate) : Federate :=
  { f with ordinal := some (f.ordinal.getD (UInt64.ofNat i)) }

/-- The manifest as it is read back: options that the user did not choose are at their defaults, and
federates without an ordinal have that of their position. -/
def Manifest.readBack (m : Manifest) : Manifest :=
  { m with target := m.target.readBack, federates := m.federates.mapIdx Federate.placed }

/-- Federates are numbered by their positions. -/
theorem Manifest.numberFrom_eq (i : Nat) (fs : List Federate) :
    numberFrom i fs = fs.mapIdx fun j f => f.placed (i + j) := by
  induction fs generalizing i with
  | nil => rfl
  | cons f fs ih =>
    have hnext : ∀ j, i + 1 + j = i + (j + 1) := fun j => by omega
    rw [numberFrom, ih, List.mapIdx_cons]
    simp only [hnext]
    rfl

/-- Ordinals are filled in by position. -/
theorem Manifest.assignOrdinals_eq (m : Manifest) :
    m.assignOrdinals = { m with federates := m.federates.mapIdx Federate.placed } := by
  rw [assignOrdinals, numberFrom_eq]
  simp only [Nat.zero_add]

/-- Every block of a manifest has a header. -/
theorem Manifest.isSome_header {m : Manifest} {b : Toml.Block} (hb : b ∈ m.blocks) :
    b.header.isSome := by
  rcases List.mem_append.1 hb with hb | hb
  · simp only [tables, List.map_cons, List.map_nil, List.mem_cons, List.not_mem_nil, or_false] at hb
    rcases hb with rfl | rfl | rfl | rfl <;> rfl
  · obtain ⟨f, -, hb⟩ := List.mem_flatMap.1 hb
    rcases Federate.of_mem_blocks hb with rfl | ⟨i, -, rfl⟩ | ⟨q, -, rfl⟩ <;> rfl

/-- A manifest cannot be written if one of its numbers is beyond the bounds of the format. -/
theorem Manifest.toToml?_eq_none_iff (m : Manifest) :
    m.toToml? = none ↔ ∃ n ∈ m.integers, 0x8000000000000000 ≤ n.toNat := by
  rw [toToml?, Option.map_eq_none_iff, blocks?_eq]
  constructor
  · intro h
    split at h
    · cases h
    · next hall =>
      push Not at hall
      exact hall
  · rintro ⟨n, hn, hgreat⟩
    exact if_neg fun hall => Nat.not_lt_of_le hgreat (hall n hn)

/-- A manifest can be written if its numbers are within the bounds of the format. -/
theorem Manifest.toToml?_of_integers {m : Manifest} (h : ∀ n ∈ m.integers, IsInteger n) :
    m.toToml? = some (Toml.renderBlocks m.blocks) := by
  rw [toToml?, blocks?_eq, if_pos h]
  rfl

/-- **A written manifest is read back.** -/
theorem Manifest.parse_toToml {m : Manifest} {t : String} (h : m.toToml? = some t) :
    Manifest.parse t = if m.hasBlankName then .error .emptyProjectName else .ok m.readBack := by
  have hintegers : ∀ n ∈ m.integers, IsInteger n := by
    intro n hn
    by_contra hgreat
    have hnone := m.toToml?_eq_none_iff.2 ⟨n, hn, Nat.le_of_not_lt hgreat⟩
    rw [h] at hnone
    cases hnone
  have htext : t = Toml.renderBlocks m.blocks :=
    Option.some.inj (h.symm.trans (toToml?_of_integers hintegers))
  have hread : Toml.parse? t = some (.table (Toml.Entries.toData m.entries)) := by
    rw [htext, Toml.parse?_renderBlocks (fun _ => isWritable_of_mem_blocks hintegers)
      (fun _ => isSome_header), m.toData?_sections]
  rw [Manifest.parse, hread, Option.bind_some, m.ofData?_entries]
  dsimp only
  rw [assignOrdinals_eq]
  rfl

/-! ## What is read from a document -/

namespace Data

variable {d : Data} {c : Convention}

/-- The fields of a record are parts of it. -/
theorem IsToml.record? {fields : List String} {field : String → Option Data} (hd : d.IsToml)
    (h : d.record? c fields = some field) {key : String} {x : Data} (hx : field key = some x) :
    x.IsToml := by
  cases hd with
  | table hentries =>
    cases h
    exact hentries _ (Toml.mem_of_lookup hx)
  | list hitems =>
    rw [Data.record?] at h
    split at h
    · cases h
    · cases h
      exact hitems _ (List.of_mem_zip (Toml.mem_of_lookup hx)).2
  | dateTime =>
    cases h
    cases hx
  | boolean | integer | float | string => cases h

/-- A number that TOML can hold can be written. -/
theorem IsToml.word? {n : UInt64} (hd : d.IsToml) (h : d.word? = some n) : IsInteger n := by
  cases hd with
  | @integer k hlow hhigh =>
    rw [Data.word?] at h
    split at h
    · cases h
      have hsmall : k.toNat < 0x8000000000000000 := by omega
      have hmod := UInt64.toNat_ofNat' (n := k.toNat)
      have hsize : k.toNat % 2 ^ 64 = k.toNat := Nat.mod_eq_of_lt (by omega)
      show (UInt64.ofNat k.toNat).toNat < 0x8000000000000000
      rw [hmod, hsize]
      exact hsmall
    · cases h
  | boolean | float | dateTime | string | list | table => cases h

/-- TOML has no null, so that what may be null is always there. -/
theorem IsToml.nullable? {α : Type} {read : Data → Option α} (hd : d.IsToml) :
    Data.nullable? read d = (read d).map some := by
  cases hd <;> rfl

/-- What holds of the default and of everything that is read holds of a field. -/
theorem of_fieldOr {α : Type} {p : α → Prop} {default a : α} {read : Data → Option α}
    {field : Option Data} (h : fieldOr default read field = some a) (hdefault : p default)
    (hread : ∀ d, field = some d → read d = some a → p a) : p a := by
  cases field with
  | none =>
    cases h
    exact hdefault
  | some d => exact hread d rfl h

/-- What holds of everything that is read holds of a field that may be missing. -/
theorem IsToml.of_nullableField {α : Type} {p : α → Prop} {read : Data → Option α}
    {field : Option Data} {value : Option α} (hfield : ∀ x, field = some x → x.IsToml)
    (hread : ∀ {x a}, x.IsToml → read x = some a → p a)
    (h : fieldOr none (Data.nullable? read) field = some value) : ∀ a ∈ value, p a := by
  refine of_fieldOr (p := fun value => ∀ a ∈ value, p a) h nofun fun x hx hvalue => ?_
  rw [(hfield x hx).nullable?] at hvalue
  obtain ⟨a, ha, rfl⟩ := Option.map_eq_some_iff.1 hvalue
  rintro _ ⟨⟩
  exact hread (hfield x hx) ha

/-- What holds of every item that is read holds of all of them. -/
theorem IsToml.of_mapM {α : Type} {p : α → Prop} {read : Data → Option α} {items : List Data}
    {l : List α} (hitems : ∀ x ∈ items, x.IsToml)
    (hread : ∀ {x a}, x.IsToml → read x = some a → p a) (h : items.mapM read = some l) :
    ∀ a ∈ l, p a := by
  induction items generalizing l with
  | nil =>
    cases h
    exact nofun
  | cons x items ih =>
    obtain ⟨hx, hrest⟩ := List.forall_mem_cons.1 hitems
    rw [List.mapM_cons] at h
    obtain ⟨a, ha, h⟩ := Option.bind_eq_some_iff.1 h
    obtain ⟨as, has, h⟩ := Option.bind_eq_some_iff.1 h
    cases h
    exact List.forall_mem_cons.2 ⟨hread hx ha, ih hrest has⟩

/-- What holds of every record that is read holds of all in a list. -/
theorem IsToml.of_records {α : Type} {p : α → Prop} {read : Data → Option α} {l : List α}
    (hd : d.IsToml) (hread : ∀ {x a}, x.IsToml → read x = some a → p a)
    (h : Data.records? read d = some l) : ∀ a ∈ l, p a := by
  cases hd with
  | list hitems => exact of_mapM hitems hread h
  | boolean | integer | float | dateTime | string | table => cases h

end Data

/-- An option that is read is the user's choice or the default. -/
theorem Tracked.orDefault_ofField? {α : Type} {default : α} {read : Data → Option α}
    {field : Option Data} {t : Tracked α} (h : Tracked.ofField? default read field = some t) :
    t.orDefault default = t := by
  refine Data.of_fieldOr (p := fun t => t.orDefault default = t) h rfl fun d _ hd => ?_
  obtain ⟨a, -, rfl⟩ := Option.map_eq_some_iff.1 hd
  rfl

/-- A board that is read is one, unless it is the default. -/
theorem Tracked.boardOrDefault_ofField? {field : Option Data} {t : Tracked (Option String)}
    (hfield : ∀ d, field = some d → d.IsToml)
    (h : Tracked.ofField? none (Data.nullable? Data.string?) field = some t) :
    t.boardOrDefault = t := by
  refine Data.of_fieldOr (p := fun t => t.boardOrDefault = t) h rfl fun d hd hread => ?_
  rw [(hfield d hd).nullable?] at hread
  obtain ⟨board, hboard, rfl⟩ := Option.map_eq_some_iff.1 hread
  obtain ⟨s, -, rfl⟩ := Option.map_eq_some_iff.1 hboard
  rfl

/-- Target options that are read are read back as they are. -/
theorem TargetOptions.readBack_ofData? {c : Data.Convention} {d : Data} {o : TargetOptions}
    (hd : d.IsToml) (h : TargetOptions.ofData? c d = some o) : o.readBack = o := by
  obtain ⟨field, hfield, h⟩ := Option.bind_eq_some_iff.1 h
  obtain ⟨platform, hplatform, h⟩ := Option.bind_eq_some_iff.1 h
  obtain ⟨board, hboard, h⟩ := Option.bind_eq_some_iff.1 h
  obtain ⟨logging, hlogging, h⟩ := Option.bind_eq_some_iff.1 h
  obtain ⟨netInterface, hnetInterface, h⟩ := Option.bind_eq_some_iff.1 h
  obtain ⟨noCompile, hnoCompile, h⟩ := Option.bind_eq_some_iff.1 h
  cases h
  have hboards : ∀ x, field "board" = some x → x.IsToml := fun _ => hd.record? hfield
  unfold readBack
  rw [Tracked.orDefault_ofField? hplatform, Tracked.boardOrDefault_ofField? hboards hboard,
    Tracked.orDefault_ofField? hlogging, Tracked.orDefault_ofField? hnetInterface,
    Tracked.orDefault_ofField? hnoCompile]

/-- Zero can be written. -/
theorem Toml.isInteger_zero : IsInteger 0 :=
  Nat.zero_lt_of_lt (Nat.lt_succ_self _)

/-- Queue sizes can be written if both of their numbers can. -/
theorem QueueSizes.isInteger_integers {q : QueueSizes} (hevents : IsInteger q.events)
    (hreactions : IsInteger q.reactions) : ∀ n ∈ q.integers, IsInteger n :=
  List.forall_mem_cons.2 ⟨hevents, List.forall_mem_singleton.2 hreactions⟩

/-- Queue sizes that are read can be written. -/
theorem QueueSizes.isInteger_of_ofData? {c : Data.Convention} {d : Data} {q : QueueSizes}
    (hd : d.IsToml) (h : QueueSizes.ofData? c d = some q) : ∀ n ∈ q.integers, IsInteger n := by
  obtain ⟨field, hfield, h⟩ := Option.bind_eq_some_iff.1 h
  obtain ⟨events, hevents, h⟩ := Option.bind_eq_some_iff.1 h
  obtain ⟨reactions, hreactions, h⟩ := Option.bind_eq_some_iff.1 h
  cases h
  have hword : ∀ {key n}, Data.fieldOr 0 Data.word? (field key) = some n → IsInteger n := by
    intro key n hn
    exact Data.of_fieldOr hn Toml.isInteger_zero fun x hx hread =>
      (hd.record? hfield hx).word? hread
  exact isInteger_integers (hword hevents) (hword hreactions)

/-- The numbers of a federate that is read can be written. -/
theorem Federate.isInteger_of_ofData? {c : Data.Convention} {d : Data} {f : Federate}
    (hd : d.IsToml) (h : Federate.ofData? c d = some f) : ∀ n ∈ f.integers, IsInteger n := by
  obtain ⟨field, hfield, h⟩ := Option.bind_eq_some_iff.1 h
  obtain ⟨_, -, h⟩ := Option.bind_eq_some_iff.1 h
  obtain ⟨name, -, h⟩ := Option.bind_eq_some_iff.1 h
  obtain ⟨platform, -, h⟩ := Option.bind_eq_some_iff.1 h
  obtain ⟨board, -, h⟩ := Option.bind_eq_some_iff.1 h
  obtain ⟨interfaces, -, h⟩ := Option.bind_eq_some_iff.1 h
  obtain ⟨ordinal, hordinal, h⟩ := Option.bind_eq_some_iff.1 h
  obtain ⟨sizing, hsizing, h⟩ := Option.bind_eq_some_iff.1 h
  cases h
  have hfields : ∀ {key} x, field key = some x → x.IsToml := fun _ => hd.record? hfield
  have hnumber : ∀ n ∈ ordinal, IsInteger n :=
    Data.IsToml.of_nullableField hfields (fun hx => hx.word?) hordinal
  have hsizes : ∀ q ∈ sizing, ∀ n ∈ q.integers, IsInteger n :=
    Data.IsToml.of_nullableField hfields QueueSizes.isInteger_of_ofData? hsizing
  intro n hn
  rcases List.mem_append.1 hn with hn | hn
  · exact hnumber n (Option.mem_toList.1 hn)
  · obtain ⟨q, hq, hn⟩ := List.mem_flatMap.1 hn
    exact hsizes q (Option.mem_toList.1 hq) n hn

/-- The options of a manifest that is read are read back as they are, and its numbers can be
written. -/
theorem Manifest.of_ofData? {c : Data.Convention} {d : Data} {m : Manifest} (hd : d.IsToml)
    (h : Manifest.ofData? c d = some m) :
    m.target.readBack = m.target ∧ ∀ n ∈ m.integers, IsInteger n := by
  obtain ⟨field, hfield, h⟩ := Option.bind_eq_some_iff.1 h
  obtain ⟨_, -, h⟩ := Option.bind_eq_some_iff.1 h
  obtain ⟨⟨name, main⟩, -, h⟩ := Option.bind_eq_some_iff.1 h
  obtain ⟨target, htarget, h⟩ := Option.bind_eq_some_iff.1 h
  obtain ⟨sizing, hsizing, h⟩ := Option.bind_eq_some_iff.1 h
  obtain ⟨sharedNumbering, -, h⟩ := Option.bind_eq_some_iff.1 h
  obtain ⟨federates, hfederates, h⟩ := Option.bind_eq_some_iff.1 h
  cases h
  have hfields : ∀ {key} x, field key = some x → x.IsToml := fun _ => hd.record? hfield
  have hoptions : target.readBack = target :=
    Data.of_fieldOr (p := fun o => o.readBack = o) htarget rfl fun x hx hread =>
      TargetOptions.readBack_ofData? (hfields x hx) hread
  have hsizes : ∀ n ∈ sizing.integers, IsInteger n :=
    Data.of_fieldOr (p := fun q => ∀ n ∈ q.integers, IsInteger n) hsizing
      (QueueSizes.isInteger_integers Toml.isInteger_zero Toml.isInteger_zero)
      fun x hx hread => QueueSizes.isInteger_of_ofData? (hfields x hx) hread
  have hnumbers : ∀ f ∈ federates, ∀ n ∈ f.integers, IsInteger n :=
    Data.of_fieldOr (p := fun fs => ∀ f ∈ fs, ∀ n ∈ f.integers, IsInteger n) hfederates nofun
      fun x hx hread => (hfields x hx).of_records Federate.isInteger_of_ofData? hread
  refine ⟨hoptions, fun n hn => ?_⟩
  rcases List.mem_append.1 hn with hn | hn
  · exact hsizes n hn
  · obtain ⟨f, hf, hn⟩ := List.mem_flatMap.1 hn
    exact hnumbers f hf n hn

/-! ## What is read from a text -/

/-- A manifest that is read from a text has its ordinals filled in. -/
theorem Manifest.exists_of_parse {s : String} {m : Manifest} (h : Manifest.parse s = .ok m) :
    ∃ read : Manifest, read.target.readBack = read.target ∧ (∀ n ∈ read.integers, IsInteger n) ∧
      read.hasBlankName = false ∧ m = read.assignOrdinals := by
  unfold Manifest.parse at h
  split at h
  · cases h
  · next read hread =>
    obtain ⟨d, hd, hread⟩ := Option.bind_eq_some_iff.1 hread
    obtain ⟨htarget, hintegers⟩ := Manifest.of_ofData? (Toml.parse?_isToml hd) hread
    split at h
    · cases h
    · next hname =>
      cases h
      exact ⟨read, htarget, hintegers, Bool.eq_false_iff.2 hname, rfl⟩

/-- A manifest that is read from a text is read back as it is. -/
theorem Manifest.readBack_of_parse {s : String} {m : Manifest} (h : Manifest.parse s = .ok m) :
    m.readBack = m := by
  obtain ⟨read, htarget, -, -, rfl⟩ := exists_of_parse h
  rw [assignOrdinals_eq, readBack, htarget, List.mapIdx_mapIdx]
  rfl

/-- The application name of a manifest that is read from a text is not blank. -/
theorem Manifest.hasBlankName_of_parse {s : String} {m : Manifest}
    (h : Manifest.parse s = .ok m) : m.hasBlankName = false := by
  obtain ⟨read, -, -, hname, rfl⟩ := exists_of_parse h
  exact hname

/-- The numbers of a federate with its position for an ordinal can be written, if that position
can. -/
theorem Federate.isInteger_of_placed {i : Nat} {f : Federate} (hi : i < 0x8000000000000000)
    (hf : ∀ n ∈ f.integers, IsInteger n) : ∀ n ∈ (f.placed i).integers, IsInteger n := by
  intro n hn
  rcases List.mem_append.1 hn with hn | hn
  · cases hordinal : f.ordinal with
    | none =>
      have hplace : n = UInt64.ofNat i := by
        simpa [placed, hordinal] using hn
      have hsize : i % 2 ^ 64 = i := Nat.mod_eq_of_lt (by omega)
      show n.toNat < 0x8000000000000000
      rw [hplace, UInt64.toNat_ofNat', hsize]
      exact hi
    | some k =>
      have hown : n = k := by
        simpa [placed, hordinal] using hn
      exact hf n (List.mem_append_left _ (by simp [hordinal, hown]))
  · exact hf n (List.mem_append_right _ hn)

/-- The numbers of a manifest that is read from a text can be written, unless it has so many
federates that the position of one cannot. -/
theorem Manifest.isInteger_of_parse {s : String} {m : Manifest} (h : Manifest.parse s = .ok m)
    (hlength : m.federates.length ≤ 0x8000000000000000) : ∀ n ∈ m.integers, IsInteger n := by
  obtain ⟨read, -, hintegers, -, rfl⟩ := exists_of_parse h
  rw [assignOrdinals_eq] at hlength ⊢
  rw [List.length_mapIdx] at hlength
  intro n hn
  rcases List.mem_append.1 hn with hn | hn
  · exact hintegers n (List.mem_append_left _ hn)
  · obtain ⟨f, hf, hn⟩ := List.mem_flatMap.1 hn
    -- Each federate is one that was read, with its position filled in if it had no ordinal.
    obtain ⟨i, hi, rfl⟩ := List.mem_mapIdx.1 hf
    have hown : ∀ n ∈ (read.federates[i]).integers, IsInteger n := fun n hn =>
      hintegers n (List.mem_append_right _ (List.mem_flatMap.2 ⟨_, List.getElem_mem hi, hn⟩))
    exact Federate.isInteger_of_placed (by omega) hown n hn

/-- **Writing a manifest fails only for numbers beyond the bounds of the format, and what is written
is read back with the defaults filled in. A manifest that is read from a text is read back
unchanged, and it can be written.** The last of these asks that the positions of its federates are
within bounds, as they are in every list that fits a memory with 64-bit addresses. -/
theorem Manifest.toToml_roundTrip :
    (∀ m : Manifest, m.toToml? = none ↔ ∃ n ∈ m.integers, 0x8000000000000000 ≤ n.toNat) ∧
    (∀ (m : Manifest) (t : String), m.toToml? = some t →
      Manifest.parse t = if m.hasBlankName then .error .emptyProjectName else .ok m.readBack) ∧
    ∀ (s : String) (m : Manifest), Manifest.parse s = .ok m →
      (∀ t, m.toToml? = some t → Manifest.parse t = .ok m) ∧
      (m.federates.length ≤ 0x8000000000000000 → ∃ t, m.toToml? = some t) := by
  refine ⟨toToml?_eq_none_iff, fun m t => parse_toToml, fun s m h => ⟨fun t ht => ?_, ?_⟩⟩
  · rw [parse_toToml ht, hasBlankName_of_parse h, readBack_of_parse h]
    rfl
  · intro hlength
    exact ⟨_, toToml?_of_integers (isInteger_of_parse h hlength)⟩

/-- A board that an inline table names is still the user's choice when it is written and read
back. -/
theorem Manifest.inlineBoard_roundTrip :
    ∃ m, Manifest.parse "project.name = \"a\"\ntarget = \x7b board = \"b\\n'\" \x7d" = .ok m ∧
      m.target.board = .user (some "b\n'") ∧
      ∃ t, m.toToml? = some t ∧ Manifest.parse t = .ok m := by
  have hread : Manifest.parse "project.name = \"a\"\ntarget = \x7b board = \"b\\n'\" \x7d" =
      .ok { name := "a", target := { board := .user (some "b\n'") } } := by
    decide +kernel
  obtain ⟨hback, hwrite⟩ := toToml_roundTrip.2.2 _ _ hread
  obtain ⟨t, ht⟩ := hwrite (Nat.zero_le _)
  exact ⟨_, hread, rfl, t, ht, hback t ht⟩

end ReactorDeploy
