import ReactorDeploy.Proofs.Federation.Addresses
import ReactorDeploy.Proofs.Generation.Outcome

/-!
# Passes that share an allocator

A pass through a shared allocator first reserves what its federates declare and then takes the
addresses it needs, until it has them all or none is left. `takenAddresses` is the trace of that,
of a pass that fails as well as of one that succeeds; `Taking` says what becomes of the allocator
on the way.

An address is taken only if it is not reserved, and nothing is ever taken back. So whatever one pass
declares or takes no later pass takes (`shared_passes_never_reuse`), however many passes there are
and whichever of them fail.
-/

namespace ReactorDeploy

open Net (Allocator Ipv6 SharedAllocator)

/-! ## What assignment takes -/

/-- The addresses that assignment takes from the allocator, in order, up to the federate for which
none is left. -/
def takenAddresses : List Federate → Allocator → List Ipv6
  | [], _ => []
  | f :: fs, a =>
    match f.declaredIpv6? with
    | some _ => takenAddresses fs a
    | none =>
      match a.nextAddress with
      | (.ok x, b) => x :: takenAddresses fs b
      | (.error _, _) => []

/-- Assignment to the federates takes the addresses, whichever way it ends, and the allocator goes
from the first state to the second. -/
inductive Taking : List Federate → Allocator → List Ipv6 → Allocator → Prop where
  | nil {a : Allocator} : Taking [] a [] a
  | declared {f : Federate} {fs : List Federate} {a b : Allocator} {x : Ipv6} {xs : List Ipv6} :
      f.declaredIpv6? = some x → Taking fs a xs b → Taking (f :: fs) a xs b
  | taken {f : Federate} {fs : List Federate} {a b c : Allocator} {x : Ipv6} {xs : List Ipv6} :
      f.declaredIpv6? = none → a.nextAddress = (.ok x, b) → Taking fs b xs c →
      Taking (f :: fs) a (x :: xs) c
  | exhausted {f : Federate} {fs : List Federate} {a b : Allocator} {e : Net.Exhausted} :
      f.declaredIpv6? = none → a.nextAddress = (.error e, b) → Taking (f :: fs) a [] b

/-- What assignment takes, and the state it leaves behind. -/
theorem taking_assignAddresses (fs : List Federate) (a : Allocator) :
    Taking fs a (takenAddresses fs a) (assignAddresses fs a).2 := by
  induction fs generalizing a with
  | nil => exact .nil
  | cons f fs ih =>
    unfold takenAddresses assignAddresses addressOf
    cases hf : f.declaredIpv6? with
    | some x => exact .declared hf (ih a)
    | none =>
      cases hnext : a.nextAddress with
      | mk found b =>
        cases found with
        | ok x => exact .taken hf hnext (ih b)
        | error e => exact .exhausted hf hnext

/-- An allocator that has no address left keeps its reservations. -/
theorem Net.Allocator.reserved_of_nextAddress_error {a b : Allocator} {e : Net.Exhausted}
    (h : a.nextAddress = (.error e, b)) : b.reserved = a.reserved := by
  unfold nextAddress at h
  split at h
  · obtain ⟨-, rfl, -⟩ := nextFrom_error h
    rfl
  · cases h
    rfl

namespace Taking

variable {fs : List Federate} {a b : Allocator} {xs : List Ipv6}

/-- Afterwards there are reserved the addresses that were taken, and what was reserved before. -/
theorem mem_reserved_iff (h : Taking fs a xs b) {t : String} :
    t ∈ b.reserved ↔ t ∈ a.reserved ∨ ∃ x ∈ xs, t = x.text := by
  induction h with
  | nil => simp
  | declared _ _ ih => exact ih
  | taken _ hnext _ ih =>
    obtain ⟨-, -, -, rfl⟩ := Allocator.nextAddress_ok hnext
    rw [ih, Allocator.mem_insert_iff]
    simp only [List.exists_mem_cons_iff]
    tauto
  | exhausted _ hnext => simp [Allocator.reserved_of_nextAddress_error hnext]

/-- No address that is taken was reserved before. -/
theorem text_notMem (h : Taking fs a xs b) {x : Ipv6} (hx : x ∈ xs) : x.text ∉ a.reserved := by
  induction h with
  | nil => cases hx
  | declared _ _ ih => exact ih hx
  | taken _ hnext _ ih =>
    obtain ⟨-, -, hfree, rfl⟩ := Allocator.nextAddress_ok hnext
    rcases List.mem_cons.1 hx with rfl | hx
    · exact hfree
    · exact fun hold => ih hx (Allocator.mem_insert_iff.2 (.inr hold))
  | exhausted _ _ => cases hx

/-- No address is taken twice. -/
theorem nodup (h : Taking fs a xs b) : xs.Nodup := by
  induction h with
  | nil => exact List.nodup_nil
  | declared _ _ ih => exact ih
  | taken _ hnext hrest ih =>
    obtain ⟨-, -, -, rfl⟩ := Allocator.nextAddress_ok hnext
    have hnew : _ ∉ _ := fun hmem => hrest.text_notMem hmem (Allocator.mem_insert_iff.2 (.inl rfl))
    exact List.nodup_cons.2 ⟨hnew, ih⟩
  | exhausted _ _ => exact List.nodup_nil

end Taking

/-- Who gets an address and does not declare it gets one that was taken. -/
theorem Assigned.declared_or_taken {fs : List Federate} {a b : Allocator} {xs : List Ipv6}
    (h : Assigned fs a xs b) {f : Federate} {x : Ipv6} (hfx : (f, x) ∈ fs.zip xs) :
    f.declaredIpv6? = some x ∨ x ∈ takenAddresses fs a := by
  induction h with
  | nil => cases hfx
  | declared hf _ ih =>
    rcases List.mem_cons.1 hfx with heq | hfx
    · cases heq
      exact .inl hf
    · refine (ih hfx).imp_right fun hmem => ?_
      simpa only [takenAddresses, hf] using hmem
  | allocated hf hnext _ ih =>
    simp only [takenAddresses, hf, hnext, List.mem_cons]
    rcases List.mem_cons.1 hfx with heq | hfx
    · cases heq
      exact .inr (.inl rfl)
    · exact (ih hfx).imp_right .inr

/-! ## Passes -/

namespace Manifest

/-- Reserving what federates declare takes nothing back. -/
theorem mem_reservations {m : Manifest} {a : Allocator} {t : String} (h : t ∈ a.reserved) :
    t ∈ (m.reservations a).reserved :=
  (Allocator.advances_markAllUsed a _).reserved t h

/-- The state in which the units of a federation leave the allocator. -/
theorem snd_federationUnits (m : Manifest) (a : Allocator) :
    (m.federationUnits a).2 =
      if m.target.isConstrained then (assignAddresses m.orderedFederates (m.reservations a)).2
      else a := by
  unfold federationUnits assignNetworks reservations
  cases m.target.isConstrained <;> rfl

end Manifest

/-- The numbering in which a pass leaves an allocator that it shares. -/
theorem snd_generate_usable (s : Setup) (r : Request) (a : Allocator) :
    (generate s (.shared (.usable a)) r).2 =
      if r.manifest.isFederated then .shared (.usable (r.manifest.federationUnits a).2)
      else .shared (.usable a) := by
  unfold generate
  cases r.manifest.isFederated <;> rfl

/-- A call of generation. -/
structure Pass where
  setup : Setup
  request : Request

namespace Pass

/-- What the pass comes to, and the numbering that it leaves behind. -/
def run (p : Pass) (n : Numbering) : Except GenerationError GenerationOutput × Numbering :=
  generate p.setup n p.request

/-- Whether units of the pass need addresses: it generates a federation, on the constrained
transport. -/
def isConstrained (p : Pass) : Bool :=
  p.request.manifest.isFederated && p.request.manifest.target.isConstrained

/-- The well-formed IPv6 addresses that the federates of the pass declare, if it is on the
constrained transport. -/
def declared (p : Pass) : List Ipv6 :=
  if p.isConstrained then p.request.manifest.federates.flatMap Federate.declaredIpv6s else []

/-- The addresses that the pass takes from the allocator that it shares, if it shares one. -/
def taken (p : Pass) : Numbering → List Ipv6
  | .shared (.usable a) =>
    if p.isConstrained then
      takenAddresses p.request.manifest.orderedFederates (p.request.manifest.reservations a)
    else []
  | _ => []

/-- A pass leaves a numbering without a usable allocator as it was. -/
theorem snd_run_of_unusable (p : Pass) {n : Numbering} (h : ∀ a, n ≠ .shared (.usable a)) :
    (p.run n).2 = n := by
  unfold run generate
  split
  · rfl
  · cases n with
    | perPass => rfl
    | shared pool =>
      cases pool with
      | usable a => exact absurd rfl (h a)
      | poisoned => rfl

/-- A pass that needs no addresses leaves the numbering as it was. -/
theorem snd_run_of_not_isConstrained {p : Pass} (h : p.isConstrained = false) (n : Numbering) :
    (p.run n).2 = n := by
  by_cases husable : ∃ a, n = .shared (.usable a)
  · obtain ⟨a, rfl⟩ := husable
    rw [run, snd_generate_usable]
    split
    · next hfederated =>
      have htcp : p.request.manifest.target.isConstrained = false := by
        rw [isConstrained, hfederated, Bool.true_and] at h
        exact h
      rw [Manifest.snd_federationUnits, htcp]
      rfl
    · rfl
  · exact p.snd_run_of_unusable fun a ha => husable ⟨a, ha⟩

/-- Only a pass on the constrained transport takes anything, and only from a usable allocator. -/
theorem exists_of_mem_taken {p : Pass} {n : Numbering} {x : Ipv6} (h : x ∈ p.taken n) :
    p.isConstrained = true ∧ ∃ a, n = .shared (.usable a) := by
  unfold taken at h
  split at h
  · next a =>
    split at h
    · next hconstrained => exact ⟨hconstrained, a, rfl⟩
    · cases h
  · cases h

/-- What a pass does to the numbering: nothing, and then it takes nothing; or it is on the
constrained transport and shares a usable allocator, in which it first reserves and then takes. -/
theorem run_cases (p : Pass) (n : Numbering) :
    ((p.run n).2 = n ∧ p.taken n = [] ∧
      (p.isConstrained = true → ∀ a, n ≠ .shared (.usable a))) ∨
    ∃ a b, p.isConstrained = true ∧ n = .shared (.usable a) ∧
      (p.run n).2 = .shared (.usable b) ∧
      Taking p.request.manifest.orderedFederates (p.request.manifest.reservations a)
        (p.taken n) b := by
  by_cases h : p.isConstrained = true ∧ ∃ a, n = .shared (.usable a)
  · obtain ⟨hconstrained, a, rfl⟩ := h
    obtain ⟨hfederated, htransport⟩ := Bool.and_eq_true_iff.1 hconstrained
    refine .inr ⟨a, (p.request.manifest.federationUnits a).2, hconstrained, rfl, ?_, ?_⟩
    · rw [run, snd_generate_usable, if_pos hfederated]
    · rw [Manifest.snd_federationUnits, if_pos htransport, taken, if_pos hconstrained]
      exact taking_assignAddresses _ _
  · refine .inl ⟨?_, ?_, fun hconstrained a ha => h ⟨hconstrained, a, ha⟩⟩
    · cases hconstrained : p.isConstrained with
      | false => exact snd_run_of_not_isConstrained hconstrained n
      | true => exact p.snd_run_of_unusable fun a ha => h ⟨hconstrained, a, ha⟩
    · exact List.eq_nil_iff_forall_not_mem.2 fun x hx => h (exists_of_mem_taken hx)

end Pass

/-! ## What stays reserved -/

/-- The address cannot be taken from the allocator of the numbering: it is reserved there, unless
there is no allocator that could be used. -/
def Numbering.Reserves (n : Numbering) (x : Ipv6) : Prop :=
  ∀ a, n = .shared (.usable a) → x.text ∈ a.reserved

namespace Pass

variable {p : Pass} {n : Numbering} {x : Ipv6}

theorem reserves_usable_iff {a : Allocator} :
    (Numbering.shared (.usable a)).Reserves x ↔ x.text ∈ a.reserved := by
  constructor
  · intro h
    exact h a rfl
  · intro h b hb
    cases hb
    exact h

/-- A pass takes no reservation back. -/
theorem reserves_run (h : n.Reserves x) : (p.run n).2.Reserves x := by
  rcases p.run_cases n with ⟨hrun, -⟩ | ⟨a, b, -, rfl, hrun, htaking⟩
  · rw [hrun]
    exact h
  · rw [hrun, reserves_usable_iff]
    exact htaking.mem_reserved_iff.2 (.inl (Manifest.mem_reservations (h a rfl)))

/-- Only a pass on the constrained transport declares anything. -/
theorem mem_declared_iff :
    x ∈ p.declared ↔
      p.isConstrained = true ∧ ∃ f ∈ p.request.manifest.federates, x ∈ f.declaredIpv6s := by
  unfold declared
  cases p.isConstrained <;> simp

/-- What a pass declares is reserved from then on. -/
theorem reserves_of_declared (h : x ∈ p.declared) : (p.run n).2.Reserves x := by
  obtain ⟨hconstrained, f, hf, hx⟩ := mem_declared_iff.1 h
  rcases p.run_cases n with ⟨hrun, -, hunusable⟩ | ⟨a, b, -, rfl, hrun, htaking⟩
  · rw [hrun]
    exact fun a ha => absurd ha (hunusable hconstrained a)
  · rw [hrun, reserves_usable_iff]
    exact htaking.mem_reserved_iff.2 (.inl (declared_mem_reservations hf hx))

/-- What a pass takes is reserved from then on. -/
theorem reserves_of_taken (h : x ∈ p.taken n) : (p.run n).2.Reserves x := by
  rcases p.run_cases n with ⟨-, htaken, -⟩ | ⟨a, b, -, -, hrun, htaking⟩
  · rw [htaken] at h
    cases h
  · rw [hrun, reserves_usable_iff]
    exact htaking.mem_reserved_iff.2 (.inr ⟨x, h, rfl⟩)

/-- A pass takes nothing that is reserved. -/
theorem notMem_taken (h : n.Reserves x) : x ∉ p.taken n := by
  intro hx
  rcases p.run_cases n with ⟨-, htaken, -⟩ | ⟨a, b, -, rfl, -, htaking⟩
  · rw [htaken] at hx
    cases hx
  · exact htaking.text_notMem hx (Manifest.mem_reservations (h a rfl))

/-- A pass takes nothing that it declares. -/
theorem notMem_declared (h : x ∈ p.taken n) : x ∉ p.declared := by
  intro hx
  obtain ⟨-, f, hf, hfx⟩ := mem_declared_iff.1 hx
  rcases p.run_cases n with ⟨-, htaken, -⟩ | ⟨a, b, -, rfl, -, htaking⟩
  · rw [htaken] at h
    cases h
  · exact htaking.text_notMem h (declared_mem_reservations hf hfx)

/-- A pass takes no address twice. -/
theorem nodup_taken (p : Pass) (n : Numbering) : (p.taken n).Nodup := by
  rcases p.run_cases n with ⟨-, htaken, -⟩ | ⟨a, b, -, -, -, htaking⟩
  · rw [htaken]
    exact List.nodup_nil
  · exact htaking.nodup

end Pass

/-! ## Sequences of passes -/

/-- What a pass has to do with addresses. -/
structure PassRecord where
  /-- The addresses that its federates declare. -/
  declared : List Ipv6
  /-- The addresses that it takes from the shared allocator. -/
  taken : List Ipv6

/-- The records of passes one after the other, each of which starts with the numbering that the one
before it leaves behind. -/
def Numbering.records : Numbering → List Pass → List PassRecord
  | _, [] => []
  | n, p :: passes => ⟨p.declared, p.taken n⟩ :: Numbering.records (p.run n).2 passes

namespace Numbering

variable {n : Numbering} {x : Ipv6} {passes : List Pass} {e : PassRecord}

/-- What is reserved no pass takes, however many there are. -/
theorem notMem_taken_of_mem_records (h : n.Reserves x) (he : e ∈ n.records passes) :
    x ∉ e.taken := by
  induction passes generalizing n with
  | nil => cases he
  | cons p passes ih =>
    rcases List.mem_cons.1 he with rfl | he
    · exact Pass.notMem_taken h
    · exact ih (Pass.reserves_run h) he

/-- Every record is that of a pass. -/
theorem exists_pass_of_mem_records (he : e ∈ n.records passes) :
    ∃ p ∈ passes, ∃ n, e = ⟨p.declared, p.taken n⟩ := by
  induction passes generalizing n with
  | nil => cases he
  | cons p passes ih =>
    rcases List.mem_cons.1 he with rfl | he
    · exact ⟨p, .head _, n, rfl⟩
    · obtain ⟨q, hq, n, he⟩ := ih he
      exact ⟨q, .tail _ hq, n, he⟩

/-- No pass takes what an earlier one declared or took. -/
theorem pairwise_records (n : Numbering) (passes : List Pass) :
    (n.records passes).Pairwise fun earlier later =>
      ∀ x ∈ later.taken, x ∉ earlier.taken ∧ x ∉ earlier.declared := by
  induction passes generalizing n with
  | nil => exact .nil
  | cons p passes ih =>
    refine .cons (fun e he x hx => ⟨fun htaken => ?_, fun hdeclared => ?_⟩) (ih _)
    · exact notMem_taken_of_mem_records (Pass.reserves_of_taken htaken) he hx
    · exact notMem_taken_of_mem_records (Pass.reserves_of_declared hdeclared) he hx

end Numbering

/-- An address of a unit is the first one that the federate of the unit declares, or one that the
pass takes. -/
theorem Pass.declared_or_taken {p : Pass} {pool : SharedAllocator} {out : GenerationOutput}
    (h : (p.run (.shared pool)).1 = .ok out) {u : GeneratedUnit} (hu : u ∈ out.units) {x : Ipv6}
    (hx : u.address = some x) :
    (∃ f ∈ p.request.manifest.federates, u.federate = some f.name ∧ f.declaredIpv6? = some x) ∨
      x ∈ p.taken (.shared pool) := by
  obtain ⟨ps, hplanned, rfl⟩ := exists_planned h
  rw [GenerationOutput.units_ofUnits] at hu
  obtain ⟨q, hq, rfl⟩ := List.mem_map.1 hu
  obtain ⟨hfederated, htransport, a, xs, b, ha, hassigned, f, hfx, hrole⟩ :=
    hplanned.exists_assigned_of_address hq hx
  cases pool with
  | poisoned => cases ha
  | usable a' =>
    cases ha
    have hconstrained : p.isConstrained = true := by
      rw [isConstrained, hfederated, htransport]
      rfl
    rcases hassigned.declared_or_taken hfx with hdeclared | htaken
    · refine .inl ⟨f, Manifest.mem_orderedFederates.1 (List.of_mem_zip hfx).1, ?_, hdeclared⟩
      show q.role.federate?.map Federate.name = some f.name
      rw [hrole]
      rfl
    · rw [taken, if_pos hconstrained]
      exact .inr htaken

/-! ## A federation that is generated twice -/

/-- A pass over the federation of three whose first two federates declare addresses. -/
def overlappingPass : Pass where
  setup := {}
  request := overlappingRequest

/-- The three federates of the example, in order of generation. -/
theorem orderedFederates_overlapping_eq : overlapping.orderedFederates =
    [overlapping.federates[0], overlapping.federates[1], overlapping.federates[2]] :=
  orderedFederates_overlapping

/-- The pass takes one address, the first one that is free. -/
theorem overlappingPass_taken {a : Allocator} {n : UInt64}
    (hnext : (overlapping.reservations a).next = some n)
    (hfree : ¬ (overlapping.reservations a).Taken n) :
    overlappingPass.taken (.shared (.usable a)) = [⟨(overlapping.reservations a).network, n⟩] ∧
      (overlappingPass.run (.shared (.usable a))).2 =
        .shared (.usable (overlapping.reservations a).nextAddress.2) := by
  obtain ⟨hfirst, hsecond, hnone⟩ := declaredIpv6?_overlapping
  have hthird := Allocator.nextAddress_of_free hnext hfree
  constructor
  · show takenAddresses overlapping.orderedFederates (overlapping.reservations a) = _
    rw [orderedFederates_overlapping_eq]
    simp only [takenAddresses, hfirst, hsecond, hnone, hthird]
  · have hassign : (overlapping.federationUnits a).2 =
        (overlapping.reservations a).nextAddress.2 := by
      rw [Manifest.snd_federationUnits, orderedFederates_overlapping_eq]
      simp only [assignAddresses, addressOf, hfirst, hsecond, hnone, hthird]
      rfl
    rw [← hassign]
    exact snd_generate_usable {} overlappingRequest a

/-! ## Addresses across passes -/

/-- **Passes that share an allocator never reuse an address.** Over any sequence of passes, none of
which resets the allocator, what a pass takes is all different, is declared by none of its
federates, and is neither taken nor declared by an earlier pass, even by one that failed. A pass off
the constrained transport leaves the allocator as it was; one on it reserves what its federates
declare and what it takes, and nothing else, and each address of its units is declared or taken. -/
theorem shared_passes_never_reuse (pool : SharedAllocator) (passes : List Pass) :
    ((Numbering.shared pool).records passes).Pairwise (fun earlier later =>
      ∀ x ∈ later.taken, x ∉ earlier.taken ∧ x ∉ earlier.declared) ∧
    (∀ e ∈ (Numbering.shared pool).records passes,
      e.taken.Nodup ∧ ∀ x ∈ e.taken, x ∉ e.declared) ∧
    (∀ (p : Pass) (n : Numbering), p.isConstrained = false → (p.run n).2 = n) ∧
    (∀ (p : Pass) (a : Allocator), p.isConstrained = true →
      ∃ b, (p.run (.shared (.usable a))).2 = .shared (.usable b) ∧
        ∀ t, t ∈ b.reserved ↔ t ∈ (p.request.manifest.reservations a).reserved ∨
          ∃ x ∈ p.taken (.shared (.usable a)), t = x.text) ∧
    (∀ (p : Pass) (pool : SharedAllocator) (out : GenerationOutput),
      (p.run (.shared pool)).1 = .ok out → ∀ u ∈ out.units, ∀ x, u.address = some x →
        (∃ f ∈ p.request.manifest.federates,
          u.federate = some f.name ∧ f.declaredIpv6? = some x) ∨ x ∈ p.taken (.shared pool)) := by
  refine ⟨Numbering.pairwise_records _ _, fun e he => ?_, fun p n h => ?_, fun p a h => ?_,
    fun p pool out h u hu x hx => Pass.declared_or_taken h hu hx⟩
  · obtain ⟨p, -, n, rfl⟩ := Numbering.exists_pass_of_mem_records he
    exact ⟨p.nodup_taken n, fun x hx => Pass.notMem_declared hx⟩
  · exact Pass.snd_run_of_not_isConstrained h n
  · rcases p.run_cases (.shared (.usable a)) with ⟨-, -, hunusable⟩ | ⟨a', b, -, ha, hrun, htaking⟩
    · exact absurd rfl (hunusable h a)
    · cases ha
      exact ⟨b, hrun, fun t => htaking.mem_reserved_iff⟩

/-- The second of two passes over the example takes another address than the first one. -/
theorem repeated_pass_takes_another_address :
    (Numbering.shared .fresh).records [overlappingPass, overlappingPass] =
        [⟨overlappingPass.declared, [⟨Allocator.defaultNetwork, 10⟩]⟩,
          ⟨overlappingPass.declared, [⟨Allocator.defaultNetwork, 11⟩]⟩] ∧
      (⟨Allocator.defaultNetwork, 11⟩ : Ipv6) ∉ overlappingPass.declared := by
  have hnetwork := network_reservations_overlapping
  obtain ⟨hnext, hfree⟩ := reservations_overlapping
  obtain ⟨hfirst, hrun⟩ := overlappingPass_taken hnext hfree
  rw [Allocator.nextAddress_of_free hnext hfree] at hrun
  generalize hb : (⟨_, _, _⟩ : Allocator) = b at hrun
  have hnext' : (overlapping.reservations b).next = some 11 := by
    rw [← hb, Manifest.reservations, Manifest.reservations, orderedFederates_overlapping]
    decide +kernel
  have hfree' : ¬ (overlapping.reservations b).Taken 11 := by
    rw [Allocator.Taken, hnetwork, ← hb, Manifest.reservations, Manifest.reservations,
      orderedFederates_overlapping, Std.TreeSet.mem_iff_contains]
    decide +kernel
  obtain ⟨hsecond, -⟩ := overlappingPass_taken hnext' hfree'
  have hrecords : (Numbering.shared .fresh).records [overlappingPass, overlappingPass] =
      [⟨overlappingPass.declared, [⟨Allocator.defaultNetwork, 10⟩]⟩,
        ⟨overlappingPass.declared, [⟨Allocator.defaultNetwork, 11⟩]⟩] := by
    have hnetwork' : b.network = Allocator.defaultNetwork := by
      rw [← hb]
      exact hnetwork .fresh
    show [PassRecord.mk _ (overlappingPass.taken (.shared (.usable .fresh))),
      PassRecord.mk _ (overlappingPass.taken (overlappingPass.run (.shared (.usable .fresh))).2)] =
        _
    rw [hrun, hfirst, hsecond, hnetwork, hnetwork, hnetwork']
    rfl
  obtain ⟨-, hown, -⟩ := shared_passes_never_reuse .fresh [overlappingPass, overlappingPass]
  rw [hrecords] at hown
  exact ⟨hrecords, (hown _ (.tail _ (.head _))).2 _ (.head _)⟩

end ReactorDeploy
