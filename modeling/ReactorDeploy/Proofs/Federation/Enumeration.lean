import ReactorDeploy.Proofs.Federation.Addresses
import ReactorDeploy.Proofs.Federation.Order
import ReactorDeploy.Proofs.Net.Counting

/-!
# The addresses of a federation in closed form

A pass that starts with a fresh allocator first reserves all that its federates declare, which
brings the counter behind the greatest identifier declared (`stands_reservations`). From there on
every federate without an address of its own gets the next one, so which addresses a federation gets
is known before the first one is handed out (`enumerated`), and so is whether there are enough of
them (`Manifest.Exhausts`).
-/

namespace ReactorDeploy

open Net (Allocator Ipv6)
open Net.Allocator (Event Stands highest)

/-! ## What federates declare -/

/-- Whether a federate declares no well-formed IPv6 address. -/
def Federate.isAddressless (f : Federate) : Bool :=
  f.declaredIpv6s.isEmpty

theorem Federate.isAddressless_iff {f : Federate} :
    f.isAddressless = true ↔ f.declaredIpv6? = none := by
  rw [isAddressless, List.isEmpty_iff, ← f.head?_declaredIpv6s, List.head?_eq_none_iff]

theorem address?_marked_trim (i : Interface) :
    (Event.marked (Text.trim i.address)).address? = i.ipv6? := by
  rw [Event.address?, Text.trim_trim, Interface.ipv6?]

/-- The well-formed ones of the addresses that look like IPv6 are all that a federate declares. -/
theorem Federate.filterMap_ipv6LikeAddresses (f : Federate) :
    (f.ipv6LikeAddresses.map Event.marked).filterMap Event.address? = f.declaredIpv6s := by
  rw [ipv6LikeAddresses, List.map_map, List.filterMap_map, List.filterMap_filter, declaredIpv6s]
  refine List.filterMap_congr fun i _ => ?_
  simp only [Function.comp_apply, address?_marked_trim]
  cases hx : i.ipv6? with
  | none => split <;> rfl
  | some x => rw [if_pos (Interface.looksLikeIpv6_of_ipv6 hx)]

namespace Manifest

/-- The greatest interface identifier among the addresses of the default network that federates
declare, in whichever interface, and zero if there is none. -/
def highestDeclared (m : Manifest) : UInt64 :=
  (((m.federates.flatMap Federate.declaredIpv6s).filter fun x =>
    x.network == Allocator.defaultNetwork).map Ipv6.interface).foldl max 0

/-- The number of federates that declare no well-formed IPv6 address. -/
def addressless (m : Manifest) : Nat :=
  m.federates.countP Federate.isAddressless

/-- The federates need more addresses than there are behind the greatest one declared. -/
def Exhausts (m : Manifest) : Prop :=
  0 < m.addressless ∧ 2 ^ 64 - 1 < m.highestDeclared.toNat + m.addressless

instance (m : Manifest) : Decidable m.Exhausts :=
  inferInstanceAs (Decidable (_ ∧ _))

end Manifest

/-! ## Reserving what is declared -/

/-- Reserving texts moves the state on by their events. -/
theorem Net.Allocator.Stands.markAll {a : Allocator} {network : UInt64} {events : List Event}
    (h : a.Stands network events) (texts : List String) :
    (a.markAllUsed texts).Stands network (events ++ texts.map .marked) := by
  induction texts generalizing a events with
  | nil =>
    rw [List.map_nil, List.append_nil]
    exact h
  | cons s texts ih =>
    rw [Allocator.markAllUsed_cons, List.map_cons, List.append_cons]
    exact ih (h.mark s)

/-- The greatest of some numbers is the same in whichever order they come. -/
theorem Net.Allocator.foldl_max_of_perm {ns ms : List UInt64} (h : ns.Perm ms) :
    ns.foldl max 0 = ms.foldl max 0 := by
  refine h.foldl_eq' (fun m _ n _ init => ?_) 0
  rw [← UInt64.toNat_inj]
  simp only [toNat_max]
  omega

namespace Manifest

/-- The events by which the federates of a manifest reserve what they declare. -/
def declarations (m : Manifest) : List Event :=
  (m.orderedFederates.flatMap Federate.ipv6LikeAddresses).map .marked

/-- The greatest identifier in use by then is the greatest one declared. -/
theorem highest_declarations (m : Manifest) :
    highest Allocator.defaultNetwork m.declarations = m.highestDeclared := by
  have hdeclared : m.declarations.filterMap Event.address? =
      m.orderedFederates.flatMap Federate.declaredIpv6s := by
    rw [declarations, List.map_flatMap, List.filterMap_flatMap]
    exact List.flatMap_congr fun f _ => f.filterMap_ipv6LikeAddresses
  rw [highest, Allocator.interfaces, hdeclared, highestDeclared]
  exact Allocator.foldl_max_of_perm
    (((m.orderedFederates_perm.flatMap_right Federate.declaredIpv6s).filter _).map _)

/-- Once a fresh allocator has reserved what the federates declare, it stands behind the greatest
identifier declared. -/
theorem stands_reservations (m : Manifest) :
    (m.reservations .fresh).Stands Allocator.defaultNetwork m.declarations :=
  (Stands.fresh Allocator.defaultNetwork).markAll _

theorem countP_orderedFederates (m : Manifest) :
    m.orderedFederates.countP Federate.isAddressless = m.addressless :=
  m.orderedFederates_perm.countP_eq _

end Manifest

/-! ## Numbers in order -/

/-- The addresses of federates in order: the first one that each of them declares, and for the
others those of the network behind an identifier, one after the other. -/
def enumerated (network : UInt64) : Nat → List Federate → List Ipv6
  | _, [] => []
  | n, f :: fs =>
    match f.declaredIpv6? with
    | some x => x :: enumerated network n fs
    | none => ⟨network, UInt64.ofNat (n + 1)⟩ :: enumerated network (n + 1) fs

theorem length_enumerated (network : UInt64) (n : Nat) (fs : List Federate) :
    (enumerated network n fs).length = fs.length := by
  induction fs generalizing n with
  | nil => rfl
  | cons f fs ih =>
    unfold enumerated
    cases f.declaredIpv6? <;> exact congrArg Nat.succ (ih _)

/-- Who declares an address has the first one declared. -/
theorem of_mem_zip_enumerated {network : UInt64} {n : Nat} {fs : List Federate} {f : Federate}
    {x y : Ipv6} (h : (f, x) ∈ fs.zip (enumerated network n fs)) (hy : f.declaredIpv6? = some y) :
    x = y := by
  induction fs generalizing n with
  | nil => cases h
  | cons g fs ih =>
    unfold enumerated at h
    cases hg : g.declaredIpv6? with
    | some z =>
      rw [hg] at h
      rcases List.mem_cons.1 h with heq | h
      · cases heq
        exact Option.some.inj (hg.symm.trans hy)
      · exact ih h
    | none =>
      rw [hg] at h
      rcases List.mem_cons.1 h with heq | h
      · cases heq
        rw [hg] at hy
        cases hy
      · exact ih h

/-- The others have the identifiers behind the given one, without a gap. -/
theorem filter_zip_enumerated (network : UInt64) (n : Nat) (fs : List Federate) :
    ((fs.zip (enumerated network n fs)).filter fun fx => fx.1.isAddressless).map Prod.snd =
      (List.range (fs.countP Federate.isAddressless)).map fun i =>
        ⟨network, UInt64.ofNat (n + (i + 1))⟩ := by
  induction fs generalizing n with
  | nil => rfl
  | cons f fs ih =>
    unfold enumerated
    cases hf : f.declaredIpv6? with
    | some x =>
      have hless : f.isAddressless = false := by
        rw [← Bool.not_eq_true, Federate.isAddressless_iff, hf]
        nofun
      rw [List.zip_cons_cons, List.filter_cons_of_neg (by simp [hless]), ih,
        List.countP_cons_of_neg (by simp [hless])]
    | none =>
      have hless : f.isAddressless = true := Federate.isAddressless_iff.2 hf
      rw [List.zip_cons_cons, List.filter_cons_of_pos (by simp [hless]), List.map_cons, ih,
        List.countP_cons_of_pos hless, List.range_succ_eq_map, List.map_cons, List.map_map]
      simp only [Function.comp_def, Nat.succ_eq_add_one, Nat.zero_add, Nat.add_assoc,
        Nat.add_comm 1]

/-- Who gets the next address gets the number behind the greatest one in use, which is then the
greatest one. -/
theorem Net.Allocator.Stands.highest_issued {a : Allocator} {network n : UInt64}
    {events : List Event} (h : a.Stands network events) (hn : a.next = some n) :
    (highest network (events ++ [.issued ⟨network, n⟩])).toNat =
      (highest network events).toNat + 1 := by
  have hstep := Net.toNat_of_successor? (h.next.symm.trans hn)
  rw [Allocator.highest_concat]
  show (if network = network then max (highest network events) n else _).toNat = _
  rw [if_pos rfl, Allocator.toNat_max]
  omega

/-- Assignment gives the federates their enumerated addresses, unless it takes more numbers than
there are behind the greatest one in use. -/
theorem fst_assignAddresses {a : Allocator} {network : UInt64} {events : List Event}
    (h : a.Stands network events) (fs : List Federate) :
    (assignAddresses fs a).1 =
      if 0 < fs.countP Federate.isAddressless ∧
          2 ^ 64 - 1 < (highest network events).toNat + fs.countP Federate.isAddressless
        then .error ⟨network⟩
        else .ok (enumerated network (highest network events).toNat fs) := by
  induction fs generalizing a events with
  | nil => rfl
  | cons f fs ih =>
    unfold assignAddresses addressOf enumerated
    cases hf : f.declaredIpv6? with
    | some x =>
      have hless : ¬ f.isAddressless = true := by
        rw [Federate.isAddressless_iff, hf]
        exact Option.some_ne_none x
      rw [List.countP_cons_of_neg hless]
      show (assignAddresses fs a).1.map (x :: ·) = _
      rw [ih h]
      split <;> rfl
    | none =>
      rw [List.countP_cons_of_pos (Federate.isAddressless_iff.2 hf)]
      have hissue := h.issue
      rw [h.nextAddress_eq] at hissue ⊢
      cases hn : a.next with
      | none =>
        have hlast := Allocator.le_of_successor?_eq_none (k := 0xffffffffffffffff)
          (h.next.symm.trans hn)
        rw [UInt64.le_iff_toNat_le] at hlast
        have hbound : (0xffffffffffffffff : UInt64).toNat = 2 ^ 64 - 1 := rfl
        rw [if_pos (by omega)]
      | some n =>
        rw [hn] at hissue
        have hhighest := h.highest_issued hn
        have hstep := Net.toNat_of_successor? (h.next.symm.trans hn)
        have hbound := n.toNat_lt
        have hnumber : UInt64.ofNat ((highest network events).toNat + 1) = n := by
          rw [← hstep, UInt64.ofNat_toNat]
        have hrest := ih hissue
        simp only [Event.ofResult, hhighest] at hrest
        simp only [hrest, hnumber]
        -- The number just given out is one, so that what remains decides alone.
        have hiff : (0 < fs.countP Federate.isAddressless + 1 ∧ 2 ^ 64 - 1 <
              (highest network events).toNat + (fs.countP Federate.isAddressless + 1)) ↔
            0 < fs.countP Federate.isAddressless ∧ 2 ^ 64 - 1 <
              (highest network events).toNat + 1 + fs.countP Federate.isAddressless := by
          omega
        simp only [hiff]
        split <;> rfl

/-! ## Passes that start afresh -/

namespace Manifest

/-- The addresses that federates get from a fresh allocator, in order. -/
def enumeratedAddresses (m : Manifest) : List Ipv6 :=
  enumerated Allocator.defaultNetwork m.highestDeclared.toNat m.orderedFederates

theorem length_enumeratedAddresses (m : Manifest) :
    m.enumeratedAddresses.length = m.orderedFederates.length :=
  length_enumerated _ _ _

/-- On the constrained transport a fresh allocator makes the units of the federates with their
enumerated addresses, or is exhausted. -/
theorem fst_federationUnits_fresh {m : Manifest} (hconstrained : m.target.isConstrained = true) :
    (m.federationUnits .fresh).1 =
      if m.Exhausts then .error ⟨Allocator.defaultNetwork⟩
      else .ok (m.constrainedUnits m.enumeratedAddresses) := by
  have hassign := fst_assignAddresses m.stands_reservations m.orderedFederates
  rw [highest_declarations, countP_orderedFederates] at hassign
  have hunits : (m.federationUnits .fresh).1 =
      (assignAddresses m.orderedFederates (m.reservations .fresh)).1.map m.constrainedUnits := by
    simp only [federationUnits, assignNetworks, hconstrained, if_true]
    show ((assignAddresses m.orderedFederates (m.reservations .fresh)).1.map _).map _ = _
    cases (assignAddresses m.orderedFederates (m.reservations .fresh)).1 with
    | error e => rfl
    | ok xs => exact congrArg Except.ok List.zipWith_map_right
  rw [hunits, hassign]
  show Except.map _ (if m.Exhausts then _ else _) = _
  split <;> rfl

end Manifest

section
variable {s : Setup} {n : Numbering} {r : Request}

/-- So does a pass whose numbering starts with a fresh allocator, whether its own or a shared
one. -/
theorem fst_generate_of_fresh (hfederated : r.manifest.isFederated = true)
    (hconstrained : r.manifest.target.isConstrained = true) (hn : n.allocator? = some .fresh) :
    (generate s n r).1 =
      if r.manifest.Exhausts then .error (.addressSpaceExhausted Allocator.defaultNetwork)
      else .ok (.ofUnits s r (r.manifest.constrainedUnits r.manifest.enumeratedAddresses)
        r.manifest.launchArtifact?) := by
  rw [fst_generate_of_allocator hfederated hn, Manifest.fst_federationUnits_fresh hconstrained]
  split <;> rfl

/-- Otherwise such a pass succeeds. -/
theorem exists_generate_of_fresh (hn : n.allocator? = some .fresh)
    (h : r.manifest.isFederated = true → r.manifest.target.isConstrained = true →
      ¬ r.manifest.Exhausts) : ∃ out, (generate s n r).1 = .ok out := by
  cases hfederated : r.manifest.isFederated with
  | false => exact ⟨_, fst_generate_of_standalone hfederated⟩
  | true =>
    cases hconstrained : r.manifest.target.isConstrained with
    | false =>
      rw [fst_generate_of_allocator hfederated hn,
        Manifest.federationUnits_of_not_isConstrained hconstrained]
      exact ⟨_, rfl⟩
    | true =>
      rw [fst_generate_of_fresh hfederated hconstrained hn, if_neg (h hfederated hconstrained)]
      exact ⟨_, rfl⟩

/-- The units of federates and their addresses, and what is known of each. -/
theorem Manifest.map_report_constrainedUnits (m : Manifest) (xs : List Ipv6) :
    (m.constrainedUnits xs).map (fun p => p.report s r) = (m.orderedFederates.zip xs).map fun fx =>
      (PlannedUnit.ofFederate m.name fx.1 (.ipv6 fx.2)).report s r := by
  rw [constrainedUnits, ← List.map_uncurry_zip_eq_zipWith, List.map_map]
  rfl

/-- **The addresses of a federation in closed form.** Let `m` be the greatest interface identifier
among the addresses of `fd01::/64` that the federates of a federation on the constrained transport
declare, in whichever interface, or zero; and let `k` be the number of federates that declare no
well-formed IPv6 address. A pass with its own numbering fails just if `k` is positive and `m + k` is
no identifier any more, and then the addresses are exhausted. Otherwise every federate that declares
a well-formed IPv6 address gets the first one, and the others get `m + 1`, `m + 2` and so on, by
their places and names. -/
theorem constrained_addresses_behind_highest (s : Setup) (hfederated : r.manifest.isFederated)
    (hconstrained : r.manifest.target.isConstrained) :
    let m := r.manifest.highestDeclared.toNat
    let k := r.manifest.addressless
    (∀ e, (generate s .perPass r).1 = .error e ↔
      e = .addressSpaceExhausted Allocator.defaultNetwork ∧ 0 < k ∧ 2 ^ 64 - 1 < m + k) ∧
    (¬ (0 < k ∧ 2 ^ 64 - 1 < m + k) → ∃ out fs, (generate s .perPass r).1 = .ok out ∧
      fs.Perm r.manifest.federates ∧ fs.Pairwise Federate.Ordered ∧
      List.Forall₂ (fun (u : GeneratedUnit) f => u.federate = some f.name ∧
        ∀ x, f.declaredIpv6? = some x → u.address = some x) out.units fs ∧
      ((out.units.zip fs).filter fun uf => uf.2.isAddressless).map (fun uf => uf.1.address) =
        (List.range k).map fun i => some ⟨Allocator.defaultNetwork, UInt64.ofNat (m + (i + 1))⟩) := by
  intro m k
  have hgenerate := fst_generate_of_fresh (s := s) (n := .perPass) hfederated hconstrained rfl
  refine ⟨fun e => ?_, fun henough => ?_⟩
  · rw [hgenerate]
    by_cases hexhausts : r.manifest.Exhausts
    · rw [if_pos hexhausts, Except.error.injEq, eq_comm]
      exact (and_iff_left hexhausts).symm
    · rw [if_neg hexhausts]
      exact iff_of_false nofun fun h => hexhausts h.2
  · have hlength := r.manifest.length_enumeratedAddresses
    rw [if_neg (show ¬ r.manifest.Exhausts from henough)] at hgenerate
    refine ⟨_, r.manifest.orderedFederates, hgenerate, r.manifest.orderedFederates_perm,
      r.manifest.pairwise_orderedFederates.imp Federate.ordered_iff.2, ?_⟩
    rw [GenerationOutput.units_ofUnits, Manifest.map_report_constrainedUnits]
    generalize hpairs : r.manifest.orderedFederates.zip r.manifest.enumeratedAddresses = pairs
    have hfederates : r.manifest.orderedFederates = pairs.map Prod.fst := by
      rw [← hpairs, List.map_fst_zip hlength.ge]
    constructor
    · rw [hfederates, List.forall₂_map_left_iff, List.forall₂_map_right_iff, List.forall₂_same]
      rintro ⟨f, x⟩ hfx
      rw [← hpairs] at hfx
      refine ⟨rfl, fun y hy => ?_⟩
      rw [← of_mem_zip_enumerated hfx hy]
      rfl
    · have hnumbers := filter_zip_enumerated Allocator.defaultNetwork m r.manifest.orderedFederates
      rw [Manifest.countP_orderedFederates] at hnumbers
      rw [hfederates, List.zip_map', List.filter_map, List.map_map, ← hpairs]
      have hsome := congrArg (List.map some) hnumbers
      rw [List.map_map, List.map_map] at hsome
      exact hsome

end

/-- A federation on the constrained transport, one federate of which declares the last address of
the default network, and the other one none. -/
def crowded : Manifest where
  name := "App"
  target := { platform := .user .zephyr, netInterface := .user .sicslowpan }
  federates := [
    { name := "a", interfaces := [⟨"FD01::ffff:ffff:ffff:ffff", .ethernet⟩], ordinal := some 0 },
    { name := "b", ordinal := some 1 }]

/-- A request to generate it in an empty workspace. -/
def crowdedRequest : Request where
  manifest := crowded
  workspace := Workspace.empty
  outputRoot := "out"

/-- The third federate of the first example gets the address behind the greatest one that the
others declare. Behind the last address there is none. -/
theorem overlapping_numbered_and_crowded_exhausted :
    (∃ out fs, (generate {} .perPass overlappingRequest).1 = .ok out ∧
      fs.Perm overlapping.federates ∧
      ((out.units.zip fs).filter fun uf => uf.2.isAddressless).map (fun uf => uf.1.address) =
        [some ⟨Allocator.defaultNetwork, 10⟩]) ∧
    (generate {} .perPass crowdedRequest).1 =
      .error (.addressSpaceExhausted Allocator.defaultNetwork) := by
  have hdeclared : overlapping.highestDeclared.toNat = 9 := by decide +kernel
  have hless : overlapping.addressless = 1 := by decide +kernel
  constructor
  · obtain ⟨-, hnumbered⟩ :=
      constrained_addresses_behind_highest (r := overlappingRequest) {} rfl rfl
    have henough : ¬ (0 < overlapping.addressless ∧
        2 ^ 64 - 1 < overlapping.highestDeclared.toNat + overlapping.addressless) := by
      rw [hdeclared, hless]
      decide
    obtain ⟨out, fs, hout, hperm, -, -, hunits⟩ := hnumbered henough
    refine ⟨out, fs, hout, hperm, hunits.trans ?_⟩
    show (List.range overlapping.addressless).map (fun i => some
      (⟨Allocator.defaultNetwork, UInt64.ofNat (overlapping.highestDeclared.toNat + (i + 1))⟩ :
        Ipv6)) = _
    rw [hdeclared, hless]
    rfl
  · obtain ⟨hfails, -⟩ := constrained_addresses_behind_highest (r := crowdedRequest) {} rfl rfl
    exact (hfails _).2 ⟨rfl, by decide +kernel⟩

end ReactorDeploy
