import ReactorDeploy.Proofs.Federation.Assignment
import ReactorDeploy.Proofs.Manifest.Check

/-!
# The units of a federation

A pass that succeeds generates the planned units and nothing else: one for each federate in order
of generation, with the addresses that were assigned (`exists_planned_of_generate`).
-/

namespace ReactorDeploy

open Net (Allocator Ipv6)

/-- Generating units one after the other reports on them in their order. -/
theorem GenerationOutput.units_ofUnits (s : Setup) (r : Request) (ps : List PlannedUnit)
    (launch : Option Artifact) :
    (GenerationOutput.ofUnits s r ps launch).units = ps.map fun p => p.report s r := by
  have hfold : ∀ out : GenerationOutput,
      (ps.foldl (fun out p => p.addTo s r out) out).units =
        out.units ++ ps.map fun p => p.report s r := by
    induction ps with
    | nil => simp
    | cons p ps ih =>
      intro out
      rw [List.foldl_cons, ih]
      simp [PlannedUnit.addTo]
  exact (hfold {}).trans (List.nil_append _)

namespace Manifest

/-- The allocator of a pass once all declared addresses are reserved. -/
def reservations (m : Manifest) (a : Allocator) : Allocator :=
  a.markAllUsed (m.orderedFederates.flatMap Federate.ipv6LikeAddresses)

/-- The units of federates that got these addresses. -/
def constrainedUnits (m : Manifest) (xs : List Ipv6) : List PlannedUnit :=
  List.zipWith (fun f x => PlannedUnit.ofFederate m.name f (.ipv6 x)) m.orderedFederates xs

/-- A unit is that of a federate with the address that it got. -/
theorem mem_constrainedUnits {m : Manifest} {xs : List Ipv6} {p : PlannedUnit} :
    p ∈ m.constrainedUnits xs ↔
      ∃ f x, (f, x) ∈ m.orderedFederates.zip xs ∧ p = .ofFederate m.name f (.ipv6 x) := by
  rw [constrainedUnits, ← List.map_uncurry_zip_eq_zipWith, List.mem_map]
  constructor
  · rintro ⟨⟨f, x⟩, hfx, hp⟩
    exact ⟨f, x, hfx, hp.symm⟩
  · rintro ⟨f, x, hfx, hp⟩
    exact ⟨(f, x), hfx, hp.symm⟩

/-- The federates in the order of generation are those of the manifest. -/
theorem orderedFederates_perm (m : Manifest) : m.orderedFederates.Perm m.federates :=
  List.mergeSort_perm _ _

theorem mem_orderedFederates {m : Manifest} {f : Federate} :
    f ∈ m.orderedFederates ↔ f ∈ m.federates :=
  m.orderedFederates_perm.mem_iff

/-- On the constrained transport the units are those of the federates with their addresses. -/
theorem federationUnits_of_constrained {m : Manifest} {a : Allocator} {ps : List PlannedUnit}
    (hconstrained : m.target.isConstrained) (h : (m.federationUnits a).1 = .ok ps) :
    ∃ xs b, Assigned m.orderedFederates (m.reservations a) xs b ∧ ps = m.constrainedUnits xs := by
  simp only [federationUnits, assignNetworks, hconstrained, if_true] at h
  cases hassign : assignAddresses m.orderedFederates (m.reservations a) with
  | mk result b =>
    rw [reservations] at hassign
    rw [hassign] at h
    cases result with
    | error e => cases h
    | ok xs =>
      refine ⟨xs, b, assigned_of_assignAddresses hassign, ?_⟩
      cases h
      exact List.zipWith_map_right

/-- A pass of its own numbering that succeeds generates the planned units and the launch script,
if there is one. -/
theorem exists_planned_of_generate {s : Setup} {r : Request} {out : GenerationOutput}
    (hfederated : r.manifest.isFederated) (h : (generate s .perPass r).1 = .ok out) :
    ∃ ps, (r.manifest.federationUnits .fresh).1 = .ok ps ∧
      out = .ofUnits s r ps r.manifest.launchArtifact? := by
  unfold generate generateFederation at h
  rw [hfederated] at h
  simp only [Bool.not_true, Bool.false_eq_true, if_false] at h
  cases hunits : r.manifest.federationUnits .fresh with
  | mk result b =>
    rw [hunits] at h
    cases result with
    | error e => cases h
    | ok ps => exact ⟨ps, rfl, (Except.ok.inj h).symm⟩

/-- A pass of its own numbering generates the units of the federates with their addresses, if the
addresses suffice. -/
theorem generate_of_assigned {s : Setup} {r : Request} {xs : List Ipv6} {b : Allocator}
    (hfederated : r.manifest.isFederated) (hconstrained : r.manifest.target.isConstrained)
    (h : Assigned r.manifest.orderedFederates (r.manifest.reservations .fresh) xs b) :
    (generate s .perPass r).1 =
      .ok (.ofUnits s r (r.manifest.constrainedUnits xs) r.manifest.launchArtifact?) := by
  have hunits : r.manifest.federationUnits .fresh = (.ok (r.manifest.constrainedUnits xs), b) := by
    have hassign := assignAddresses_of_assigned h
    rw [reservations] at hassign
    simp only [federationUnits, assignNetworks, hconstrained, if_true, hassign]
    exact congrArg (fun ps => (Except.ok ps, b)) List.zipWith_map_right
  unfold generate generateFederation
  simp only [hfederated, Bool.not_true, Bool.false_eq_true, if_false, hunits]
  rfl

/-- Federates that are in order already are generated in their order. -/
theorem orderedFederates_eq_self {m : Manifest}
    (h : m.federates.Pairwise fun f g => f.precedes g) : m.orderedFederates = m.federates :=
  List.mergeSort_of_pairwise h

end Manifest

end ReactorDeploy
