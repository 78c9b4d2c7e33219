import ReactorDeploy.Proofs.Federation.Units

/-!
# What a pass generates

However a pass is numbered, what comes of it when it succeeds is the output of its units and of its
launch script if there is one (`exists_planned`). Which units there are does not depend on the
numbering: a standalone application is one, and a federation has one for each federate, in order of
generation (`Planned.roles_eq`), each in the directory of its role (`Planned.directory_eq`).
-/

namespace ReactorDeploy

open Net (Allocator Ipv6)

/-- The allocator that a pass takes its addresses from: one of its own, or the one that it shares,
for as long as that can be used. -/
def Numbering.allocator? : Numbering → Option Allocator
  | .perPass => some .fresh
  | .shared (.usable a) => some a
  | .shared .poisoned => none

/-- The directory of a unit. -/
def Role.directory (app : String) : Role → String
  | .standalone => app
  | .federate f => app ++ "/" ++ f.name

namespace Manifest

/-- The roles of the units of a manifest, in the order in which they are generated. -/
def roles (m : Manifest) : List Role :=
  if m.isFederated then m.orderedFederates.map .federate else [.standalone]

/-- The launch script of a manifest as an artifact, if it is that of a federation that gets one. -/
def script? (m : Manifest) : Option Artifact :=
  if m.isFederated then m.launchArtifact? else none

/-- The units that a pass over a manifest generates when it succeeds. -/
inductive Planned (m : Manifest) (n : Numbering) : List PlannedUnit → Prop where
  | standalone : m.isFederated = false → Planned m n [m.standaloneUnit]
  | federation {a : Allocator} {ps : List PlannedUnit} :
      m.isFederated = true → n.allocator? = some a → (m.federationUnits a).1 = .ok ps →
      Planned m n ps

end Manifest

/-- A federation is generated with the allocator of the numbering. -/
theorem fst_generate_of_allocator {s : Setup} {n : Numbering} {r : Request} {a : Allocator}
    (hfederated : r.manifest.isFederated = true) (ha : n.allocator? = some a) :
    (generate s n r).1 =
      ((r.manifest.federationUnits a).1.map fun ps =>
        GenerationOutput.ofUnits s r ps r.manifest.launchArtifact?).mapError
        fun e => .addressSpaceExhausted e.network := by
  unfold generate
  rw [hfederated]
  match n, ha with
  | .perPass, rfl => rfl
  | .shared (.usable _), rfl => rfl

/-- No federation is generated without an allocator. -/
theorem fst_generate_of_no_allocator {s : Setup} {n : Numbering} {r : Request}
    (hfederated : r.manifest.isFederated = true) (hn : n.allocator? = none) :
    (generate s n r).1 = .error .allocatorPoisoned := by
  unfold generate
  rw [hfederated]
  match n, hn with
  | .shared .poisoned, _ => rfl

/-- A standalone application is generated whatever the numbering. -/
theorem fst_generate_of_standalone {s : Setup} {n : Numbering} {r : Request}
    (hstandalone : r.manifest.isFederated = false) :
    (generate s n r).1 = .ok (.ofUnits s r [r.manifest.standaloneUnit] none) := by
  unfold generate
  rw [hstandalone]
  rfl

/-- A request to generate a standalone application in an empty workspace. -/
def namedRequest (name : String) : Request where
  manifest := { name }
  workspace := Workspace.empty
  outputRoot := "out"

theorem check_named (name : String) : (namedRequest name).manifest.check = .ok [] := rfl

theorem fst_generate_named (s : Setup) (n : Numbering) (name : String) :
    (generate s n (namedRequest name)).1 =
      .ok (.ofUnits s (namedRequest name) [(namedRequest name).manifest.standaloneUnit] none) :=
  fst_generate_of_standalone rfl

/-- The unit of such a request. -/
def namedUnit (name : String) : PlannedUnit :=
  (namedRequest name).manifest.standaloneUnit

/-- A pass that succeeds has generated its units, and the launch script if there is one. -/
theorem exists_planned {s : Setup} {n : Numbering} {r : Request} {out : GenerationOutput}
    (h : (generate s n r).1 = .ok out) :
    ∃ ps, r.manifest.Planned n ps ∧ out = .ofUnits s r ps r.manifest.script? := by
  unfold Manifest.script?
  cases hfederated : r.manifest.isFederated with
  | false =>
    rw [fst_generate_of_standalone hfederated] at h
    exact ⟨_, .standalone hfederated, (Except.ok.inj h).symm⟩
  | true =>
    cases ha : n.allocator? with
    | none =>
      rw [fst_generate_of_no_allocator hfederated ha] at h
      cases h
    | some a =>
      rw [fst_generate_of_allocator hfederated ha] at h
      cases hps : (r.manifest.federationUnits a).1 with
      | error e =>
        rw [hps] at h
        cases h
      | ok ps =>
        rw [hps] at h
        exact ⟨ps, .federation hfederated ha hps, (Except.ok.inj h).symm⟩

/-! ## Units and their networks -/

/-- As many networks are assigned as there are federates. -/
theorem length_of_assignNetworks {constrained : Bool} {fs : List Federate} {a : Allocator}
    {ns : List Network} (h : (assignNetworks constrained fs a).1 = .ok ns) :
    fs.length = ns.length := by
  unfold assignNetworks at h
  split at h
  · cases hassign : assignAddresses fs (a.markAllUsed (fs.flatMap Federate.ipv6LikeAddresses)) with
    | mk result b =>
      rw [hassign] at h
      cases result with
      | error e => cases h
      | ok xs =>
        cases h
        rw [List.length_map]
        exact (assigned_of_assignAddresses hassign).length_eq
  · cases h
    rw [List.length_map]

/-- The units of a federation are those of its federates, each with a network. -/
theorem Manifest.exists_networks_of_federationUnits {m : Manifest} {a : Allocator}
    {ps : List PlannedUnit} (h : (m.federationUnits a).1 = .ok ps) :
    ∃ ns, m.orderedFederates.length = ns.length ∧
      ps = (m.orderedFederates.zip ns).map fun fn => .ofFederate m.name fn.1 fn.2 := by
  cases hns : assignNetworks m.target.isConstrained m.orderedFederates a with
  | mk result b =>
    simp only [federationUnits, hns] at h
    cases result with
    | error e => cases h
    | ok ns =>
      cases h
      refine ⟨ns, length_of_assignNetworks (congrArg Prod.fst hns), ?_⟩
      exact List.map_uncurry_zip_eq_zipWith.symm

/-- Off the constrained transport the units are those of the federates on one host. -/
theorem Manifest.federationUnits_of_not_isConstrained {m : Manifest}
    (h : m.target.isConstrained = false) (a : Allocator) :
    (m.federationUnits a).1 =
      .ok (m.orderedFederates.map fun f => .ofFederate m.name f .loopback) := by
  simp only [federationUnits, assignNetworks, h, Bool.false_eq_true, if_false]
  have hunits : List.zipWith (PlannedUnit.ofFederate m.name) m.orderedFederates
      (m.orderedFederates.map fun _ => .loopback) =
        m.orderedFederates.map fun f => .ofFederate m.name f .loopback := by
    rw [List.zipWith_map_right, List.zipWith_self]
  exact congrArg Except.ok hunits

namespace Manifest.Planned

variable {m : Manifest} {n : Numbering} {ps : List PlannedUnit}

/-- Every role has its unit, in the order of generation. -/
theorem roles_eq (h : m.Planned n ps) : ps.map PlannedUnit.role = m.roles := by
  cases h with
  | standalone hstandalone =>
    rw [roles, hstandalone]
    rfl
  | federation hfederated _ hps =>
    obtain ⟨ns, hlength, rfl⟩ := exists_networks_of_federationUnits hps
    rw [roles, if_pos hfederated, List.map_map]
    have hroles : (PlannedUnit.role ∘ fun fn : Federate × Network =>
        PlannedUnit.ofFederate m.name fn.1 fn.2) = Role.federate ∘ Prod.fst := rfl
    rw [hroles, ← List.map_map, List.map_fst_zip hlength.le]

/-- A standalone application is the one unit of its own. -/
theorem eq_of_standalone (h : m.Planned n ps) (hstandalone : m.isFederated = false) :
    ps = [m.standaloneUnit] := by
  cases h with
  | standalone _ => rfl
  | federation hfederated =>
    rw [hstandalone] at hfederated
    cases hfederated

/-- Every federate has its unit. -/
theorem exists_federate (h : m.Planned n ps) (hfederated : m.isFederated = true) {f : Federate}
    (hf : f ∈ m.federates) : ∃ p ∈ ps, p.role = .federate f := by
  have hrole : Role.federate f ∈ ps.map PlannedUnit.role := by
    rw [h.roles_eq, roles, if_pos hfederated]
    exact List.mem_map_of_mem (mem_orderedFederates.2 hf)
  exact List.mem_map.1 hrole

/-- There is a unit, whatever the manifest. -/
theorem ne_nil (h : m.Planned n ps) : ps ≠ [] := by
  rintro rfl
  have hroles : [] = m.roles := h.roles_eq
  unfold roles at hroles
  split at hroles
  · next hfederated =>
    have hfederates := m.orderedFederates_perm
    rw [List.map_eq_nil_iff.1 hroles.symm] at hfederates
    rw [isFederated, List.nil_perm.1 hfederates] at hfederated
    cases hfederated
  · cases hroles

/-- Every unit is generated into the directory of its role. -/
theorem directory_eq (h : m.Planned n ps) {p : PlannedUnit} (hp : p ∈ ps) :
    p.directory = p.role.directory m.name := by
  cases h with
  | standalone _ =>
    rw [List.mem_singleton.1 hp]
    rfl
  | federation _ _ hps =>
    obtain ⟨ns, -, rfl⟩ := exists_networks_of_federationUnits hps
    obtain ⟨fn, -, rfl⟩ := List.mem_map.1 hp
    rfl

/-- The unit of a standalone application has no network, and those of federates have one. -/
theorem network_cases (h : m.Planned n ps) {p : PlannedUnit} (hp : p ∈ ps) :
    p.role = .standalone ∧ p.network = .isolated ∨
      ∃ f, p.role = .federate f ∧ p.network ≠ .isolated := by
  cases h with
  | standalone _ =>
    rw [List.mem_singleton.1 hp]
    exact .inl ⟨rfl, rfl⟩
  | federation _ _ hps =>
    refine .inr ?_
    cases htransport : m.target.isConstrained with
    | true =>
      obtain ⟨xs, b, -, rfl⟩ := federationUnits_of_constrained htransport hps
      obtain ⟨f, x, -, rfl⟩ := mem_constrainedUnits.1 hp
      exact ⟨f, rfl, nofun⟩
    | false =>
      rw [federationUnits_of_not_isConstrained htransport] at hps
      cases hps
      obtain ⟨f, -, rfl⟩ := List.mem_map.1 hp
      exact ⟨f, rfl, nofun⟩

/-- On the constrained transport every unit of a federation has an address. -/
theorem exists_address (h : m.Planned n ps) (hfederated : m.isFederated = true)
    (hconstrained : m.target.isConstrained = true) {p : PlannedUnit} (hp : p ∈ ps) :
    ∃ x, p.network = .ipv6 x := by
  cases h with
  | standalone hstandalone =>
    rw [hfederated] at hstandalone
    cases hstandalone
  | federation _ _ hps =>
    obtain ⟨xs, b, -, rfl⟩ := federationUnits_of_constrained hconstrained hps
    obtain ⟨f, x, -, rfl⟩ := mem_constrainedUnits.1 hp
    exact ⟨x, rfl⟩

/-- The unit of a standalone application has no address, nor have those of a federation off the
constrained transport. On it, the units are those of the federates with the addresses that they
were assigned. -/
theorem exists_assigned_of_address (h : m.Planned n ps) {p : PlannedUnit} (hp : p ∈ ps) {x : Ipv6}
    (hx : p.network.address? = some x) :
    m.isFederated = true ∧ m.target.isConstrained = true ∧
      ∃ a xs b, n.allocator? = some a ∧ Assigned m.orderedFederates (m.reservations a) xs b ∧
        ∃ f, (f, x) ∈ m.orderedFederates.zip xs ∧ p.role = .federate f := by
  cases h with
  | standalone _ =>
    rw [List.mem_singleton.1 hp] at hx
    cases hx
  | @federation a _ hfederated ha hps =>
    cases htransport : m.target.isConstrained with
    | true =>
      obtain ⟨xs, b, hassigned, rfl⟩ := federationUnits_of_constrained htransport hps
      obtain ⟨f, y, hfy, rfl⟩ := mem_constrainedUnits.1 hp
      obtain rfl : y = x := Option.some.inj hx
      exact ⟨hfederated, rfl, a, xs, b, ha, hassigned, f, hfy, rfl⟩
    | false =>
      rw [federationUnits_of_not_isConstrained htransport] at hps
      cases hps
      obtain ⟨f, -, rfl⟩ := List.mem_map.1 hp
      cases hx

end Manifest.Planned

end ReactorDeploy
