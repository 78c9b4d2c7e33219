import ReactorDeploy.Proofs.Generation.Outcome
import ReactorDeploy.Proofs.Text.Utf8

/-!
# The order of a federation

The units of a federation come one for each federate, in the order of their places, and by name
where places agree (`units_in_order_of_places`). Federates of different names have one order only
(`orderedFederates_eq_of_perm`), and a pass looks at the federates in that order alone. So it does
not matter in which order a manifest lists them.
-/

namespace ReactorDeploy

/-! ## Places -/

namespace Federate

/-- The place of a federate in its federation: its ordinal, or the last place there is. -/
def place (f : Federate) : UInt64 :=
  f.ordinal.getD 0xffffffffffffffff

/-- Federates in the order of their places, and of the bytes of their names where these agree. -/
def Ordered (f g : Federate) : Prop :=
  f.place < g.place ∨ f.place = g.place ∧ Text.utf8 f.name ≤ Text.utf8 g.name

theorem precedes_iff {f g : Federate} :
    f.precedes g = true ↔ f.place < g.place ∨ f.place = g.place ∧ f.name ≤ g.name := by
  simp [precedes, place]

theorem ordered_iff {f g : Federate} : f.Ordered g ↔ f.precedes g = true := by
  rw [Ordered, Text.utf8_le_iff, precedes_iff]

theorem precedes_trans (f g h : Federate) (hfg : f.precedes g = true) (hgh : g.precedes h = true) :
    f.precedes h = true := by
  rw [precedes_iff] at hfg hgh ⊢
  rcases hfg with hlt | ⟨heq, hfg⟩
  · rcases hgh with hlt' | ⟨heq', -⟩
    · exact .inl (UInt64.lt_trans hlt hlt')
    · exact .inl (heq' ▸ hlt)
  · rw [heq]
    exact hgh.imp id fun ⟨heq', hgh⟩ => ⟨heq', String.le_trans hfg hgh⟩

theorem precedes_total (f g : Federate) : (f.precedes g || g.precedes f) = true := by
  rw [Bool.or_eq_true, precedes_iff, precedes_iff]
  rcases Std.lt_trichotomy f.place g.place with hlt | heq | hgt
  · exact .inl (.inl hlt)
  · exact (String.le_total f.name g.name).imp (fun h => .inr ⟨heq, h⟩) fun h =>
      .inr ⟨heq.symm, h⟩
  · exact .inr (.inl hgt)

/-- Federates each of which may come before the other one have one name. -/
theorem name_eq_of_precedes {f g : Federate} (hfg : f.precedes g = true)
    (hgf : g.precedes f = true) : f.name = g.name := by
  rw [precedes_iff] at hfg hgf
  have hfg' : ¬ f.place < g.place := fun hlt =>
    hgf.elim (UInt64.lt_asymm hlt) fun hgf => UInt64.lt_irrefl _ (hgf.1 ▸ hlt)
  have hgf' : ¬ g.place < f.place := fun hlt =>
    hfg.elim (UInt64.lt_asymm hlt) fun hfg => UInt64.lt_irrefl _ (hfg.1 ▸ hlt)
  exact String.le_antisymm (hfg.resolve_left hfg').2 (hgf.resolve_left hgf').2

end Federate

/-! ## The federates of a manifest in order -/

namespace Manifest

theorem pairwise_orderedFederates (m : Manifest) :
    m.orderedFederates.Pairwise fun f g => f.precedes g = true :=
  List.pairwise_mergeSort Federate.precedes_trans Federate.precedes_total m.federates

/-- The manifest with other federates. -/
def withFederates (m : Manifest) (fs : List Federate) : Manifest :=
  { m with federates := fs }

/-- Federates of different names have one order, however they are listed. -/
theorem orderedFederates_eq_of_perm {m : Manifest} {fs : List Federate}
    (hnames : (m.federates.map Federate.name).Nodup) (hperm : fs.Perm m.federates) :
    (m.withFederates fs).orderedFederates = m.orderedFederates := by
  have hboth : (m.withFederates fs).orderedFederates.Perm m.orderedFederates :=
    ((m.withFederates fs).orderedFederates_perm.trans hperm).trans m.orderedFederates_perm.symm
  refine hboth.eq_of_pairwise (fun f g hf hg hfg hgf => ?_)
    (m.withFederates fs).pairwise_orderedFederates m.pairwise_orderedFederates
  have hfm : f ∈ m.federates := mem_orderedFederates.1 (hboth.mem_iff.1 hf)
  have hgm : g ∈ m.federates := mem_orderedFederates.1 hg
  exact List.inj_on_of_nodup_map hnames hfm hgm (Federate.name_eq_of_precedes hfg hgf)

theorem isFederated_eq_of_perm {m : Manifest} {fs : List Federate}
    (hperm : fs.Perm m.federates) : (m.withFederates fs).isFederated = m.isFederated := by
  rw [isFederated, isFederated, withFederates, hperm.isEmpty_eq]

/-- The units are one for each federate, each in the directory of its federate and for its
platform, and the federates are in the given order. -/
def UnitsInOrder (m : Manifest) (order : Federate → Federate → Prop)
    (units : List GeneratedUnit) : Prop :=
  ∃ fs : List Federate, fs.Perm m.federates ∧ fs.Pairwise order ∧
    List.Forall₂ (fun (u : GeneratedUnit) f => u.federate = some f.name ∧
      u.directory = m.name ++ "/" ++ f.name ∧ u.platform = f.resolvePlatform m.target) units fs

end Manifest

/-! ## Generation in order -/

/-- The request for the manifest with other federates. -/
def Request.withFederates (r : Request) (fs : List Federate) : Request :=
  { r with manifest := r.manifest.withFederates fs }

section
variable {s : Setup} {n : Numbering} {r : Request} {fs : List Federate}

/-- The units of a federation are those of its federates in order of generation. -/
theorem Manifest.Planned.forall₂_federates {ps : List PlannedUnit} (h : r.manifest.Planned n ps)
    (hfederated : r.manifest.isFederated = true) :
    List.Forall₂ (fun p f => p.directory = p.role.directory r.manifest.name ∧
      p.role = .federate f) ps r.manifest.orderedFederates := by
  refine (List.forall₂_and_left ps _).2 ⟨fun p hp => h.directory_eq hp, ?_⟩
  have hroles : ps.map PlannedUnit.role = r.manifest.orderedFederates.map .federate := by
    rw [h.roles_eq, Manifest.roles, if_pos hfederated]
  rw [← List.forall₂_eq_eq_eq] at hroles
  exact List.forall₂_map_right_iff.1 (List.forall₂_map_left_iff.1 hroles)

/-- The units of a federation that is generated follow the order of the federates. -/
theorem unitsInOrder_of_generate {out : GenerationOutput}
    (hfederated : r.manifest.isFederated = true) (h : (generate s n r).1 = .ok out) :
    r.manifest.UnitsInOrder Federate.Ordered out.units := by
  obtain ⟨ps, hplanned, rfl⟩ := exists_planned h
  refine ⟨r.manifest.orderedFederates, r.manifest.orderedFederates_perm,
    r.manifest.pairwise_orderedFederates.imp Federate.ordered_iff.2, ?_⟩
  rw [GenerationOutput.units_ofUnits, List.forall₂_map_left_iff]
  refine (hplanned.forall₂_federates hfederated).imp fun p f ⟨hdirectory, hrole⟩ => ?_
  rw [hrole] at hdirectory
  refine ⟨?_, hdirectory, ?_⟩
  · rw [PlannedUnit.report, hrole]
    rfl
  · rw [PlannedUnit.report, PlannedUnit.platform, hrole]
    rfl

/-- A pass looks at the federates in their order alone. -/
theorem generate_withFederates (s : Setup) (n : Numbering)
    (hordered : (r.manifest.withFederates fs).orderedFederates = r.manifest.orderedFederates)
    (hfederated : (r.manifest.withFederates fs).isFederated = r.manifest.isFederated) :
    generate s n (r.withFederates fs) = generate s n r := by
  have hunits : (r.withFederates fs).manifest.federationUnits = r.manifest.federationUnits := by
    funext a
    show Manifest.federationUnits (r.manifest.withFederates fs) a = _
    rw [Manifest.federationUnits, Manifest.federationUnits, hordered]
    rfl
  have hlaunch : (r.withFederates fs).manifest.launchArtifact? = r.manifest.launchArtifact? := by
    show Manifest.launchArtifact? (r.manifest.withFederates fs) = _
    rw [Manifest.launchArtifact?, Manifest.launchArtifact?, Manifest.launchScript,
      Manifest.launchScript, hordered]
    rfl
  -- Of the manifest, a single unit has the name, the main reactor, the target and the sizes only.
  have houtput : GenerationOutput.ofUnits s (r.withFederates fs) =
      GenerationOutput.ofUnits s r := rfl
  have hfederation : generateFederation s (r.withFederates fs) = generateFederation s r := by
    funext a
    rw [generateFederation, generateFederation, hunits, hlaunch, houtput]
  have hstandalone : (r.withFederates fs).manifest.standaloneUnit = r.manifest.standaloneUnit := rfl
  have hmode : (r.withFederates fs).manifest.isFederated = r.manifest.isFederated := hfederated
  rw [generate, generate, hmode, hstandalone, houtput, hfederation]

end

/-! ## Listed in another order -/

/-- A request to generate a federation on one host of these federates. -/
def hostRequest (fs : List Federate) : Request where
  manifest := { name := "App", federates := fs }
  workspace := Workspace.empty
  outputRoot := "out"

/-- The units of such a federation, if its federates are listed in order. -/
def hostUnits (fs : List Federate) : List PlannedUnit :=
  fs.map fun f => .ofFederate "App" f .loopback

theorem fst_generate_host {fs : List Federate} (hne : fs.isEmpty = false)
    (h : fs.Pairwise fun f g => f.precedes g = true) :
    (generate {} .perPass (hostRequest fs)).1 =
      .ok (.ofUnits {} (hostRequest fs) (hostUnits fs)
        (hostRequest fs).manifest.launchArtifact?) := by
  have hfederated : (hostRequest fs).manifest.isFederated = true := by
    rw [Manifest.isFederated, hostRequest, hne]
    rfl
  have hordered : (hostRequest fs).manifest.orderedFederates = fs :=
    Manifest.orderedFederates_eq_self h
  rw [fst_generate_of_allocator hfederated rfl,
    Manifest.federationUnits_of_not_isConstrained rfl, hordered]
  rfl

/-- Three federates in order, two of which have no ordinal. -/
def unevenFederates : List Federate :=
  [{ name := "c", ordinal := some 5 }, { name := "a" }, { name := "b" }]

/-- A federate without an ordinal, and one that has the greatest there is. -/
def tiedFederates : List Federate :=
  [{ name := "a" }, { name := "b", ordinal := some 0xffffffffffffffff }]

/-- **A federation is generated in its order.** If a pass over a federation succeeds, its units are
one for each federate, by their places, a missing ordinal being the last place there is, and by the
bytes of their names. If the names of the federates are different, the pass comes to the same in
whatever order the manifest lists them: to the same error, or to the same units, addresses and
artifacts, and with the same numbers left. -/
theorem units_in_order_of_places (s : Setup) (n : Numbering) (r : Request) :
    (∀ out, r.manifest.isFederated = true → (generate s n r).1 = .ok out →
      r.manifest.UnitsInOrder Federate.Ordered out.units) ∧
    ((r.manifest.federates.map Federate.name).Nodup → ∀ fs, fs.Perm r.manifest.federates →
      generate s n (r.withFederates fs) = generate s n r) :=
  ⟨fun _ hfederated h => unitsInOrder_of_generate hfederated h, fun hnames _ hperm =>
    generate_withFederates s n (Manifest.orderedFederates_eq_of_perm hnames hperm)
      (Manifest.isFederated_eq_of_perm hperm)⟩

/-- Of the federates without an ordinal, which come last, those of smaller names come first, however
they are listed. -/
theorem uneven_units_in_order :
    ∃ out, (generate {} .perPass (hostRequest unevenFederates)).1 = .ok out ∧
      out.units.map GeneratedUnit.federate = [some "c", some "a", some "b"] ∧
      (hostRequest unevenFederates).manifest.UnitsInOrder Federate.Ordered out.units ∧
      generate {} .perPass (hostRequest unevenFederates.reverse) =
        generate {} .perPass (hostRequest unevenFederates) := by
  have hne : unevenFederates.isEmpty = false := rfl
  have hout := fst_generate_host hne (by decide +kernel)
  obtain ⟨hunits, hany⟩ := units_in_order_of_places {} .perPass (hostRequest unevenFederates)
  refine ⟨_, hout, ?_, hunits _ rfl hout, hany (by decide) _ (List.reverse_perm _)⟩
  rw [GenerationOutput.units_ofUnits]
  rfl

/-- Federates in the order of their ordinals, those without one behind all others, and of the bytes
of their names where these agree. -/
def Federate.OrderedMissingLast (f g : Federate) : Prop :=
  match f.ordinal, g.ordinal with
  | some i, some j => i < j ∨ i = j ∧ Text.utf8 f.name ≤ Text.utf8 g.name
  | some _, none => True
  | none, some _ => False
  | none, none => Text.utf8 f.name ≤ Text.utf8 g.name

/-- **A federate without an ordinal need not be last.** It shares the last place with one whose
ordinal is the greatest there is, and comes before it if its name does. -/
theorem missing_ordinal_shares_last_place :
    ∃ out, (generate {} .perPass (hostRequest tiedFederates)).1 = .ok out ∧
      ¬ (hostRequest tiedFederates).manifest.UnitsInOrder Federate.OrderedMissingLast
        out.units := by
  refine ⟨_, fst_generate_host rfl (by decide +kernel), ?_⟩
  rw [GenerationOutput.units_ofUnits]
  rintro ⟨fs, hperm, hordered, hunits⟩
  obtain ⟨f, _, ⟨hf, -⟩, hothers, rfl⟩ := List.forall₂_cons_left_iff.1 hunits
  obtain ⟨g, _, -, -, rfl⟩ := List.forall₂_cons_left_iff.1 hothers
  -- The first unit is that of the federate without an ordinal, so the other one is behind it.
  have hname : f.name = "a" := (Option.some.inj hf).symm
  have hmem : f ∈ tiedFederates := hperm.mem_iff.1 (.head _)
  rcases List.mem_pair.1 hmem with rfl | rfl
  · have hrest : g ∈ tiedFederates.tail := (List.Perm.cons_inv hperm).mem_iff.1 (.head _)
    rw [List.mem_singleton.1 hrest] at hordered
    exact (List.pairwise_cons.1 hordered).1 _ (.head _)
  · exact absurd hname (by decide)

end ReactorDeploy
