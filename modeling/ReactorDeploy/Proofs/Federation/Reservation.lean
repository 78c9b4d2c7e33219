import ReactorDeploy.Proofs.Federation.Assignment
import ReactorDeploy.Proofs.Net.Counting

/-!
# Reserving what federates declare

Whether a declared address looks like IPv6 is asked of the text as it was written, and of the
trimmed text when it is to be reserved. A colon is no blank, so the two answers are the same
(`Interface.looksLikeIpv6_eq`). Hence no declared address that is to be reserved is ever ignored, and
it stays reserved for as long as nobody resets the allocator (`ipv6LikeAddresses_stay_reserved`).
-/

namespace ReactorDeploy

open Net (Allocator Ipv6)

/-- An address looks like IPv6 just if the allocator takes it to do so. -/
theorem Interface.looksLikeIpv6_eq (i : Interface) :
    i.looksLikeIpv6 = Net.looksLikeIpv6 (Text.trim i.address) := by
  have hcolon : i.address.toList.contains ':' = (Text.trim i.address).toList.contains ':' := by
    rw [Bool.eq_iff_iff, List.contains_iff_mem, List.contains_iff_mem, Text.mem_trim_iff rfl]
  unfold looksLikeIpv6 Net.looksLikeIpv6
  cases Net.Address.parse? (Text.trim i.address) with
  | none => exact hcolon
  | some address => rfl

namespace Net.Allocator

/-- Only a reset clears anything. -/
theorem cleared_notMem_history {steps : List Step} (h : .reset ∉ steps) (a : Allocator) :
    .cleared ∉ a.history steps := by
  induction steps generalizing a with
  | nil => exact List.not_mem_nil
  | cons step steps ih =>
    rw [List.mem_cons, not_or] at h
    rw [history, List.mem_cons, not_or]
    refine ⟨?_, ih h.2 _⟩
    cases step with
    | next =>
      rw [perform]
      cases a.nextAddress.1 <;> simp [Event.ofResult]
    | mark text => simp [perform]
    | reset => exact absurd rfl h.1

/-- A text that looks like IPv6 is reserved once it is marked, under every text with the same normal
form, and stays so up to the next reset. -/
theorem isReserved_after_mark {s u : String} {steps : List Step}
    (hlooks : looksLikeIpv6 (Text.trim s) = true) (hsame : normalForm u = normalForm s)
    (hkept : .reset ∉ steps) (a : Allocator) :
    ((a.markUsed s).after steps).isReserved u = true := by
  have hform : (Event.marked s).form? = some (normalForm s) := by
    rw [Event.form?, if_pos hlooks]
  have hmarked : normalForm s ∈ (a.markUsed s).reserved :=
    (mem_reserved_markUsed a s _).2 (.inr hform)
  have hafter := (advances_after (cleared_notMem_history hkept (a.markUsed s))).reserved _ hmarked
  rw [isReserved, hsame]
  exact hafter

end Net.Allocator

namespace Federate

/-- Every address of a federate that is to be reserved looks like IPv6 to the allocator. -/
theorem looksLikeIpv6_of_mem {f : Federate} {s : String} (h : s ∈ f.ipv6LikeAddresses) :
    Net.looksLikeIpv6 (Text.trim s) = true := by
  obtain ⟨i, hi, rfl⟩ := List.mem_map.1 h
  rw [Text.trim_trim, ← i.looksLikeIpv6_eq]
  exact (List.mem_filter.1 hi).2

/-- The first well-formed address of a federate is denoted by one of those to be reserved. -/
theorem exists_mem_ipv6LikeAddresses {f : Federate} {x : Ipv6} (h : f.declaredIpv6? = some x) :
    ∃ s ∈ f.ipv6LikeAddresses, Ipv6.parse? (Text.trim s) = some x := by
  obtain ⟨i, hi, hx⟩ := List.exists_of_findSome?_eq_some h
  refine ⟨_, trim_mem_ipv6LikeAddresses hi hx, ?_⟩
  rw [Text.trim_trim]
  exact hx

end Federate

/-- **What looks like IPv6 is reserved.** Whether an interface has an address that looks like IPv6
is the same as whether the allocator takes its trimmed text to do so. So each address that a
federate has to be reserved is reserved once it is marked, whatever the state of the allocator, and
stays reserved whatever is marked and handed out from then on. If a federate declares a well-formed
address, one of these texts denotes the first one, which is then reserved under every spelling. -/
theorem ipv6LikeAddresses_stay_reserved (f : Federate) :
    (∀ i : Interface, i.looksLikeIpv6 = Net.looksLikeIpv6 (Text.trim i.address)) ∧
    (∀ s ∈ f.ipv6LikeAddresses, ∀ (a : Allocator) (steps : List Allocator.Step),
      .reset ∉ steps → ((a.markUsed s).after steps).isReserved s = true) ∧
    ∀ x, f.declaredIpv6? = some x →
      ∃ s ∈ f.ipv6LikeAddresses, Ipv6.parse? (Text.trim s) = some x ∧
        ∀ (a : Allocator) (steps : List Allocator.Step), .reset ∉ steps →
          ∀ u, Ipv6.parse? (Text.trim u) = some x →
            ((a.markUsed s).after steps).isReserved u = true := by
  refine ⟨Interface.looksLikeIpv6_eq, fun s hs a steps hkept => ?_, fun x hx => ?_⟩
  · exact Allocator.isReserved_after_mark (Federate.looksLikeIpv6_of_mem hs) rfl hkept a
  · obtain ⟨s, hs, hparse⟩ := Federate.exists_mem_ipv6LikeAddresses hx
    refine ⟨s, hs, hparse, fun a steps hkept u hu => ?_⟩
    have hsame : Net.normalForm u = Net.normalForm s := by
      rw [Net.normalForm_of_parse? hu, Net.normalForm_of_parse? hparse]
    exact Allocator.isReserved_after_mark (Federate.looksLikeIpv6_of_mem hs) hsame hkept a

/-- A federate with an IPv4 address, a malformed one and an IPv6 address between blanks. -/
def mixedFederate : Federate where
  name := "mixed"
  interfaces := [⟨"10.0.0.1", .ethernet⟩, ⟨"FD01::9%ETH0", .sicslowpan⟩, ⟨" FD01:0::9\t", .ethernet⟩]

/-- The malformed address and the well-formed one are reserved, the latter under another spelling
as well, also when another address has been marked and one has been handed out. -/
theorem mixed_addresses_stay_reserved :
    mixedFederate.ipv6LikeAddresses = ["FD01::9%ETH0", "FD01:0::9"] ∧
      (∀ a : Allocator, ((a.markUsed "FD01::9%ETH0").after [.mark "fd01::a", .next]).isReserved
        "FD01::9%ETH0" = true) ∧
      mixedFederate.declaredIpv6? = some ⟨0xfd01000000000000, 9⟩ ∧
      ∃ s ∈ mixedFederate.ipv6LikeAddresses, ∀ a : Allocator,
        ((a.markUsed s).after [.mark "fd01::a", .next]).isReserved "fd01::0009" = true := by
  have hlike : mixedFederate.ipv6LikeAddresses = ["FD01::9%ETH0", "FD01:0::9"] := by
    decide +kernel
  have hfirst : mixedFederate.declaredIpv6? = some ⟨0xfd01000000000000, 9⟩ := by
    decide +kernel
  have hspelt : Ipv6.parse? (Text.trim "fd01::0009") = some ⟨0xfd01000000000000, 9⟩ := by
    decide +kernel
  have hkept : Allocator.Step.reset ∉ [.mark "fd01::a", .next] := by
    simp
  have hmalformed : "FD01::9%ETH0" ∈ mixedFederate.ipv6LikeAddresses := by
    rw [hlike]
    exact .head _
  obtain ⟨-, hreserved, hdeclared⟩ := ipv6LikeAddresses_stay_reserved mixedFederate
  obtain ⟨s, hs, -, hspellings⟩ := hdeclared _ hfirst
  have hheld := fun a => hreserved _ hmalformed a _ hkept
  have hspelled := fun a => hspellings a _ hkept _ hspelt
  exact ⟨hlike, hheld, hfirst, s, hs, hspelled⟩

end ReactorDeploy
