import ReactorDeploy.Proofs.Federation.Layers
import ReactorDeploy.Proofs.Federation.Units

/-!
# The addresses of a federation

On the constrained transport every unit of a pass has an address of its own, and its configuration
says so: `constrained_units_have_distinct_addresses` puts together the check for addresses declared
twice, the reservations made before the first address is handed out, and the configuration of
either kind of toolchain.

That no unit gets an address which another federate declares holds of the addresses that are handed
out, but not of all. The check compares the first addresses of federates only, so a first address
may be a later one of somebody else; `unit_address_declared_elsewhere_iff` says that this is the
only way in which two federates meet, and `unit_address_can_be_declared_elsewhere` that it
happens.
-/

namespace ReactorDeploy

open Net (Allocator Ipv6)
open Config.Fragment (valuesOf)

section
variable {s : Setup} {r : Request} {out : GenerationOutput} {warnings : List Problem}

/-- What a pass on the constrained transport comes to: the units of the federates, with the
addresses that they are assigned. -/
theorem exists_assigned_of_generate (hfederated : r.manifest.isFederated)
    (hconstrained : r.manifest.target.isConstrained) (h : (generate s .perPass r).1 = .ok out) :
    ∃ xs b, Assigned r.manifest.orderedFederates (r.manifest.reservations .fresh) xs b ∧
      out = .ofUnits s r (r.manifest.constrainedUnits xs) r.manifest.launchArtifact? := by
  obtain ⟨ps, hps, hout⟩ := Manifest.exists_planned_of_generate hfederated h
  obtain ⟨xs, b, hassigned, rfl⟩ := Manifest.federationUnits_of_constrained hconstrained hps
  exact ⟨xs, b, hassigned, hout⟩

/-- What a federate declares is reserved before any address is handed out. -/
theorem declared_mem_reservations {m : Manifest} {a : Allocator} {f : Federate}
    (hf : f ∈ m.federates) {x : Ipv6} (hx : x ∈ f.declaredIpv6s) :
    x.text ∈ (m.reservations a).reserved := by
  obtain ⟨i, hi, hix⟩ := List.mem_filterMap.1 hx
  exact Allocator.declared_mem_reserved (Manifest.mem_orderedFederates.2 hf) hi hix

/-- The first address that a federate declares is one that it declares. -/
theorem Federate.mem_declaredIpv6s_of_first {f : Federate} {x : Ipv6}
    (h : f.declaredIpv6? = some x) : x ∈ f.declaredIpv6s :=
  List.mem_of_mem_head? (by rw [f.head?_declaredIpv6s, h]; rfl)

/-- The addresses assigned by a pass over an accepted manifest are all different. -/
theorem Assigned.nodup_of_check {m : Manifest} {a b : Allocator} {xs : List Ipv6}
    (hcheck : m.check = .ok warnings)
    (h : Assigned m.orderedFederates (m.reservations a) xs b) : xs.Nodup := by
  have hperm := m.orderedFederates_perm.filterMap Federate.declaredIpv6?
  refine h.nodup (hperm.nodup_iff.2 (Manifest.nodup_declaredIpv6_of_check hcheck)) fun x hx => ?_
  obtain ⟨f, hf, hfx⟩ := List.mem_filterMap.1 hx
  exact declared_mem_reservations (Manifest.mem_orderedFederates.1 hf)
    (Federate.mem_declaredIpv6s_of_first hfx)

/-- The units have the addresses that were assigned, in order. -/
theorem Manifest.addresses_constrainedUnits {m : Manifest} {xs : List Ipv6}
    (h : m.orderedFederates.length = xs.length) (s : Setup) (r : Request) :
    ((m.constrainedUnits xs).map fun p => (p.report s r).address) = xs.map some := by
  rw [constrainedUnits, List.map_zipWith]
  refine List.ext_getElem (by simp [h]) fun n hn hn' => ?_
  rw [List.getElem_zipWith, List.getElem_map]
  rfl

/-! ## A federation whose federates meet -/

/-- A federation on the constrained transport. The first federate declares one address, the second
one the same address again, in other letters and after an address of its own, and the third none. -/
def overlapping : Manifest where
  name := "App"
  target := { platform := .user .zephyr, netInterface := .user .sicslowpan }
  federates :=
    [{ name := "a", interfaces := [⟨"fd01::9", .sicslowpan⟩], ordinal := some 0 },
      { name := "b", interfaces := [⟨"fd01::8", .sicslowpan⟩, ⟨"FD01:0::9 ", .sicslowpan⟩]
        ordinal := some 1 },
      { name := "c", ordinal := some 2 }]

/-- A request to generate it in an empty workspace. -/
def overlappingRequest : Request where
  manifest := overlapping
  workspace := Workspace.empty
  outputRoot := "out"

/-- The addresses of its units. -/
def overlappingAddresses : List Ipv6 :=
  [⟨0xfd01000000000000, 9⟩, ⟨0xfd01000000000000, 8⟩, ⟨0xfd01000000000000, 10⟩]

theorem overlapping_check : overlapping.check = .ok [] := by
  have hproblems : overlapping.problems = [] := by decide +kernel
  refine Manifest.check_eq_ok_iff.2 ⟨hproblems.symm, ?_⟩
  rw [hproblems]
  exact nofun

/-- Its federates are in order already. -/
theorem orderedFederates_overlapping : overlapping.orderedFederates = overlapping.federates :=
  Manifest.orderedFederates_eq_self (by decide +kernel)

/-- The first two of them declare addresses, and the third one none. -/
theorem declaredIpv6?_overlapping :
    Federate.declaredIpv6? (overlapping.federates[0]) = some ⟨0xfd01000000000000, 9⟩ ∧
      Federate.declaredIpv6? (overlapping.federates[1]) = some ⟨0xfd01000000000000, 8⟩ ∧
      Federate.declaredIpv6? (overlapping.federates[2]) = none := by
  decide +kernel

/-- What they declare goes into the network of the allocator. -/
theorem network_reservations_overlapping (a : Allocator) :
    (overlapping.reservations a).network = a.network :=
  (Allocator.advances_markAllUsed a _).network

/-- Behind what they declare, the first address is free. -/
theorem reservations_overlapping :
    (overlapping.reservations .fresh).next = some 10 ∧
      ¬ (overlapping.reservations .fresh).Taken 10 := by
  rw [Allocator.Taken, network_reservations_overlapping, Manifest.reservations,
    orderedFederates_overlapping, Std.TreeSet.mem_iff_contains]
  decide +kernel

/-- Its first two federates declare their addresses, and the third one gets the next free one. -/
theorem generate_overlapping (s : Setup) :
    (generate s .perPass overlappingRequest).1 =
      .ok (.ofUnits s overlappingRequest (overlapping.constrainedUnits overlappingAddresses)
        overlapping.launchArtifact?) := by
  obtain ⟨hfirst, hsecond, hnone⟩ := declaredIpv6?_overlapping
  obtain ⟨hnext, hfree⟩ := reservations_overlapping
  have hthird := Allocator.nextAddress_of_free hnext hfree
  rw [network_reservations_overlapping] at hthird
  have hassigned : Assigned overlapping.federates _ _ _ :=
    .declared hfirst (.declared hsecond (.allocated hnone hthird .nil))
  rw [← orderedFederates_overlapping] at hassigned
  exact Manifest.generate_of_assigned (r := overlappingRequest) rfl rfl hassigned

/-! ## Distinct addresses -/

/-- **Every unit on the constrained transport has an address of its own, and is configured with
it.** When a pass over an accepted manifest succeeds, the addresses of its units are all different;
and the configuration file of each unit is composed of one generated layer, which assigns the
address of that unit and assigns it once. -/
theorem constrained_units_have_distinct_addresses (hfederated : r.manifest.isFederated)
    (hconstrained : r.manifest.target.isConstrained) (hcheck : r.manifest.check = .ok warnings)
    (h : (generate s .perPass r).1 = .ok out) :
    ∃ ps : List PlannedUnit, out = .ofUnits s r ps r.manifest.launchArtifact? ∧
      out.units = ps.map (fun p => p.report s r) ∧
      (∃ xs : List Ipv6, out.units.map GeneratedUnit.address = xs.map some ∧ xs.Nodup) ∧
      ∀ p ∈ ps, ∃ x layer overlay, (p.report s r).address = some x ∧ p.layers s r = [layer] ∧
        valuesOf layer "NET_CONFIG_MY_IPV6_ADDR" = [.str x.text] ∧
        { path := (p.deployment s r).layout.generatedFile
          content := Config.mergeOverlay
            (Config.compose s.order layer (p.deployment s r).boardConfig?) overlay
            (p.deployment s r).layout.generatedFile : Artifact } ∈ (p.artifacts s r).artifacts := by
  obtain ⟨xs, b, hassigned, hout⟩ := exists_assigned_of_generate hfederated hconstrained h
  have hunits : out.units = (r.manifest.constrainedUnits xs).map fun p => p.report s r := by
    rw [hout, GenerationOutput.units_ofUnits]
  refine ⟨r.manifest.constrainedUnits xs, hout, hunits, ⟨xs, ?_, hassigned.nodup_of_check hcheck⟩,
    fun p hp => ?_⟩
  · rw [hunits, List.map_map]
    exact Manifest.addresses_constrainedUnits hassigned.length_eq s r
  · obtain ⟨f, x, -, rfl⟩ := Manifest.mem_constrainedUnits.1 hp
    have hnetwork : (PlannedUnit.ofFederate r.manifest.name f (.ipv6 x)).network = .ipv6 x := rfl
    obtain ⟨layer, hlayers, hvalues⟩ := PlannedUnit.valuesOf_address hnetwork s r
    obtain ⟨overlay, hartifact⟩ := PlannedUnit.mem_artifacts_of_layers hlayers
    exact ⟨x, layer, overlay, rfl, hlayers, hvalues, hartifact⟩

/-- The three units of the example have different addresses. -/
theorem overlapping_units_have_distinct_addresses :
    ∃ out, (generate {} .perPass overlappingRequest).1 = .ok out ∧ overlapping.check = .ok [] ∧
      ∃ xs : List Ipv6, out.units.map GeneratedUnit.address = xs.map some ∧ xs.Nodup := by
  have hout := generate_overlapping {}
  obtain ⟨-, -, -, hdistinct, -⟩ := constrained_units_have_distinct_addresses
    (r := overlappingRequest) rfl rfl overlapping_check hout
  exact ⟨_, hout, overlapping_check, hdistinct⟩

/-! ## Addresses declared elsewhere -/

/-- The unit of a federate that declares an address gets the first one. -/
theorem Assigned.mem_zip_of_declared {fs : List Federate} {a b : Allocator} {xs : List Ipv6}
    (h : Assigned fs a xs b) {f : Federate} (hf : f ∈ fs) {x : Ipv6}
    (hx : f.declaredIpv6? = some x) : (f, x) ∈ fs.zip xs := by
  obtain ⟨n, hn, rfl⟩ := List.mem_iff_getElem.1 hf
  have hn' : n < xs.length := h.length_eq ▸ hn
  have hmem : (fs[n], xs[n]) ∈ fs.zip xs :=
    List.mem_iff_getElem.2 ⟨n, by simp [hn, hn'], List.getElem_zip⟩
  rcases h.of_mem_zip hmem with hdeclared | ⟨hnone, -⟩
  · rw [Option.some.inj (hx.symm.trans hdeclared)]
    exact hmem
  · rw [hx] at hnone
    cases hnone

/-- **Where the addresses of different federates meet.** When a pass over an accepted manifest
succeeds on the constrained transport, the unit of one federate has an address that another one
declares exactly when it is the first address of the one and not the first of the other. -/
theorem unit_address_declared_elsewhere_iff (hfederated : r.manifest.isFederated)
    (hconstrained : r.manifest.target.isConstrained) (hcheck : r.manifest.check = .ok warnings)
    (h : (generate s .perPass r).1 = .ok out) {g : Federate} (hg : g ∈ r.manifest.federates)
    (x : Ipv6) :
    (x ∈ g.declaredIpv6s ∧ ∃ u ∈ out.units, u.federate ≠ some g.name ∧ u.address = some x) ↔
      x ∈ g.declaredIpv6s.tail ∧
        ∃ f ∈ r.manifest.federates, f.name ≠ g.name ∧ f.declaredIpv6? = some x := by
  obtain ⟨xs, b, hassigned, rfl⟩ := exists_assigned_of_generate hfederated hconstrained h
  rw [GenerationOutput.units_ofUnits]
  constructor
  · rintro ⟨hx, u, hu, hne, hux⟩
    obtain ⟨p, hp, rfl⟩ := List.mem_map.1 hu
    obtain ⟨f, y, hfy, rfl⟩ := Manifest.mem_constrainedUnits.1 hp
    obtain rfl : y = x := Option.some.inj hux
    have hf : f ∈ r.manifest.federates := Manifest.mem_orderedFederates.1 (List.of_mem_zip hfy).1
    have hname : f.name ≠ g.name := fun heq => hne (congrArg some heq)
    rcases hassigned.of_mem_zip hfy with hfirst | ⟨-, hfree⟩
    · refine ⟨Federate.mem_tail_declaredIpv6s hx fun hgx => hname ?_, f, hf, hname, hfirst⟩
      rw [Manifest.eq_of_declaredIpv6_of_check hcheck hf hg hfirst hgx]
    · exact absurd (declared_mem_reservations hg hx) hfree
  · rintro ⟨hx, f, hf, hname, hfirst⟩
    have hfx := hassigned.mem_zip_of_declared (Manifest.mem_orderedFederates.2 hf) hfirst
    have hp := Manifest.mem_constrainedUnits.2 ⟨f, x, hfx, rfl⟩
    refine ⟨List.mem_of_mem_tail hx, _, List.mem_map.2 ⟨_, hp, rfl⟩, fun heq => hname ?_, rfl⟩
    exact Option.some.inj heq

/-- The second federate of the example declares the address of the first one. -/
theorem overlapping_address_declared_elsewhere :
    ∃ out, (generate {} .perPass overlappingRequest).1 = .ok out ∧ overlapping.check = .ok [] ∧
      ∃ u ∈ out.units, u.federate ≠ some "b" ∧ u.address = some ⟨0xfd01000000000000, 9⟩ := by
  have hout := generate_overlapping {}
  have hsecond : overlapping.federates[1] ∈ overlapping.federates := List.getElem_mem _
  have hlater : ⟨0xfd01000000000000, 9⟩ ∈ overlapping.federates[1].declaredIpv6s.tail := by
    decide +kernel
  obtain ⟨-, hunit⟩ := (unit_address_declared_elsewhere_iff (r := overlappingRequest) rfl rfl
    overlapping_check hout hsecond ⟨0xfd01000000000000, 9⟩).2
      ⟨hlater, _, List.getElem_mem _, by decide, declaredIpv6?_overlapping.1⟩
  exact ⟨_, hout, overlapping_check, hunit⟩

/-- **A unit may have an address that another federate declares.** The manifest above is accepted,
and the pass over it gives the first federate an address that the second one declares too. -/
theorem unit_address_can_be_declared_elsewhere :
    ¬ ∀ (s : Setup) (r : Request) (out : GenerationOutput) (warnings : List Problem),
      r.manifest.check = .ok warnings → r.manifest.target.isConstrained →
      (generate s .perPass r).1 = .ok out →
      ∀ u ∈ out.units, ∀ g ∈ r.manifest.federates, u.federate ≠ some g.name →
        ∀ x ∈ g.declaredIpv6s, u.address ≠ some x := by
  intro hclaim
  have hout := generate_overlapping {}
  have hunit : (PlannedUnit.ofFederate "App" (overlapping.federates[0])
      (.ipv6 ⟨0xfd01000000000000, 9⟩)).report {} overlappingRequest ∈
      (GenerationOutput.ofUnits {} overlappingRequest
        (overlapping.constrainedUnits overlappingAddresses) overlapping.launchArtifact?).units := by
    rw [GenerationOutput.units_ofUnits]
    refine List.mem_map_of_mem (Manifest.mem_constrainedUnits.2 ⟨_, _, ?_, rfl⟩)
    rw [orderedFederates_overlapping]
    exact .head _
  have hsecond : overlapping.federates[1] ∈ overlapping.federates := List.getElem_mem _
  have hdeclared : ⟨0xfd01000000000000, 9⟩ ∈ overlapping.federates[1].declaredIpv6s := by
    decide +kernel
  exact hclaim {} overlappingRequest _ [] overlapping_check rfl hout _ hunit _ hsecond (by decide) _
    hdeclared rfl

end

end ReactorDeploy
