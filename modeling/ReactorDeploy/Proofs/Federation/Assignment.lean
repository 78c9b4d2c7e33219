import ReactorDeploy.Generation
import ReactorDeploy.Proofs.Net.Allocation
import Mathlib.Data.List.Forall2

/-!
# The addresses of federates

Each federate of a pass gets the first IPv6 address that it declares, or else the next free one
(`Assigned`). All that look like IPv6 are reserved before, so an address that is handed out is none
that a federate declares (`Assigned.of_mem_zip`), and the addresses of a pass are all different
as soon as the first declared ones are (`Assigned.nodup`).
-/

namespace ReactorDeploy

open Net (Allocator Ipv6)

/-- An interface with a well-formed IPv6 address looks like IPv6. -/
theorem Interface.looksLikeIpv6_of_ipv6 {i : Interface} {x : Ipv6} (h : i.ipv6? = some x) :
    i.looksLikeIpv6 = true := by
  unfold looksLikeIpv6
  rw [Net.Address.parse?_of_ipv6 h]
  rfl

namespace Federate

/-- What a federate declares as a well-formed IPv6 address looks like IPv6. -/
theorem trim_mem_ipv6LikeAddresses {f : Federate} {i : Interface} (hi : i ∈ f.interfaces)
    {x : Ipv6} (hx : i.ipv6? = some x) : Text.trim i.address ∈ f.ipv6LikeAddresses :=
  List.mem_map.2 ⟨i, List.mem_filter.2 ⟨hi, Interface.looksLikeIpv6_of_ipv6 hx⟩, rfl⟩

end Federate

/-! ## Reservations -/

namespace Net.Allocator

/-- Texts are reserved one after the other. -/
theorem markAllUsed_cons (a : Allocator) (s : String) (texts : List String) :
    a.markAllUsed (s :: texts) = (a.markUsed s).markAllUsed texts := by
  simp only [markAllUsed, List.foldl_cons]

/-- Reserving texts takes nothing back. -/
theorem advances_markAllUsed (a : Allocator) (texts : List String) :
    a.Advances (a.markAllUsed texts) := by
  induction texts generalizing a with
  | nil => exact Advances.refl a
  | cons s texts ih =>
    rw [markAllUsed_cons]
    exact (advances_markUsed a s).trans (ih (a.markUsed s))

/-- Each of the reserved texts that denotes an address is reserved as that address. -/
theorem text_mem_reserved_markAllUsed {a : Allocator} {texts : List String} {s : String}
    (hs : s ∈ texts) {x : Ipv6} (h : Ipv6.parse? (Text.trim s) = some x) :
    x.text ∈ (a.markAllUsed texts).reserved := by
  induction texts generalizing a with
  | nil => cases hs
  | cons t texts ih =>
    rw [markAllUsed_cons]
    rcases List.mem_cons.1 hs with rfl | hs
    · exact (advances_markAllUsed _ texts).reserved _ (text_mem_reserved_markUsed a h)
    · exact ih hs

/-- Once the addresses that look like IPv6 are reserved, every well-formed one that some federate
declares is. -/
theorem declared_mem_reserved {a : Allocator} {fs : List Federate} {f : Federate} (hf : f ∈ fs)
    {i : Interface} (hi : i ∈ f.interfaces) {x : Ipv6} (hx : i.ipv6? = some x) :
    x.text ∈ (a.markAllUsed (fs.flatMap Federate.ipv6LikeAddresses)).reserved := by
  refine text_mem_reserved_markAllUsed (s := Text.trim i.address) ?_ ?_
  · exact List.mem_flatMap.2 ⟨f, hf, Federate.trim_mem_ipv6LikeAddresses hi hx⟩
  · rw [Text.trim_trim]
    exact hx

end Net.Allocator

/-! ## Assignment -/

/-- The federates get the addresses, and the allocator goes from the first state to the second. -/
inductive Assigned : List Federate → Allocator → List Ipv6 → Allocator → Prop
  | nil {a : Allocator} : Assigned [] a [] a
  | declared {f : Federate} {fs : List Federate} {a b : Allocator} {x : Ipv6} {xs : List Ipv6} :
      f.declaredIpv6? = some x → Assigned fs a xs b → Assigned (f :: fs) a (x :: xs) b
  | allocated {f : Federate} {fs : List Federate} {a b c : Allocator} {x : Ipv6}
      {xs : List Ipv6} :
      f.declaredIpv6? = none → a.nextAddress = (.ok x, b) → Assigned fs b xs c →
      Assigned (f :: fs) a (x :: xs) c

/-- What assignment comes to when it does not run out of addresses. -/
theorem assigned_of_assignAddresses {fs : List Federate} {a b : Allocator} {xs : List Ipv6}
    (h : assignAddresses fs a = (.ok xs, b)) : Assigned fs a xs b := by
  induction fs generalizing a xs with
  | nil =>
    cases h
    exact .nil
  | cons f fs ih =>
    unfold assignAddresses addressOf at h
    cases hf : f.declaredIpv6? with
    | some x =>
      simp only [hf] at h
      cases hrest : assignAddresses fs a with
      | mk result c =>
        rw [hrest] at h
        cases result with
        | error e => cases h
        | ok ys =>
          cases h
          exact .declared hf (ih hrest)
    | none =>
      simp only [hf] at h
      cases hnext : a.nextAddress with
      | mk found a' =>
        rw [hnext] at h
        cases found with
        | error e => cases h
        | ok x =>
          cases hrest : assignAddresses fs a' with
          | mk result c =>
            simp only [hrest] at h
            cases result with
            | error e => cases h
            | ok ys =>
              cases h
              exact .allocated hf hnext (ih hrest)

/-- Assignment follows the relation. -/
theorem assignAddresses_of_assigned {fs : List Federate} {a b : Allocator} {xs : List Ipv6}
    (h : Assigned fs a xs b) : assignAddresses fs a = (.ok xs, b) := by
  induction h with
  | nil => rfl
  | declared hf _ ih => simp only [assignAddresses, addressOf, hf, ih, Except.map]
  | allocated hf hnext _ ih => simp only [assignAddresses, addressOf, hf, hnext, ih, Except.map]

namespace Assigned

variable {fs : List Federate} {a b : Allocator} {xs : List Ipv6}

/-- A federate gets the first address that it declares, or else one that was not reserved. -/
theorem forall₂ (h : Assigned fs a xs b) :
    List.Forall₂ (fun f x => f.declaredIpv6? = some x ∨
      f.declaredIpv6? = none ∧ x.text ∉ a.reserved) fs xs := by
  induction h with
  | nil => exact .nil
  | declared hf _ ih => exact .cons (.inl hf) ih
  | allocated hf hnext _ ih =>
    obtain ⟨-, -, hfree, rfl⟩ := Allocator.nextAddress_ok hnext
    refine .cons (.inr ⟨hf, hfree⟩) (ih.imp fun g y hg => hg.imp_right fun ⟨hnone, hnew⟩ => ?_)
    exact ⟨hnone, fun hold => hnew (Allocator.mem_insert_iff.2 (.inr hold))⟩

/-- As many addresses are given out as there are federates. -/
theorem length_eq (h : Assigned fs a xs b) : fs.length = xs.length :=
  h.forall₂.length_eq

/-- Whoever gets an address either declares it first or gets one that was not reserved. -/
theorem of_mem_zip (h : Assigned fs a xs b) {f : Federate} {x : Ipv6} (hfx : (f, x) ∈ fs.zip xs) :
    f.declaredIpv6? = some x ∨ f.declaredIpv6? = none ∧ x.text ∉ a.reserved :=
  (List.forall₂_iff_zip.1 h.forall₂).2 hfx

/-- An address that is given out is the first one of a federate, or was not reserved. -/
theorem declared_or_free (h : Assigned fs a xs b) {x : Ipv6} (hx : x ∈ xs) :
    x ∈ fs.filterMap Federate.declaredIpv6? ∨ x.text ∉ a.reserved := by
  obtain ⟨n, hn, rfl⟩ := List.mem_iff_getElem.1 hx
  have hfx : (fs.get ⟨n, h.length_eq ▸ hn⟩, xs[n]) ∈ fs.zip xs :=
    List.mem_iff_getElem.2 ⟨n, by simp [h.length_eq, hn], List.getElem_zip⟩
  rcases h.of_mem_zip hfx with hf | ⟨-, hfree⟩
  · exact .inl (List.mem_filterMap.2 ⟨_, List.getElem_mem _, hf⟩)
  · exact .inr hfree

/-- The addresses given out are all different, if the first declared ones are and are reserved. -/
theorem nodup (h : Assigned fs a xs b) (hdeclared : (fs.filterMap Federate.declaredIpv6?).Nodup)
    (hreserved : ∀ x ∈ fs.filterMap Federate.declaredIpv6?, x.text ∈ a.reserved) : xs.Nodup := by
  induction h with
  | nil => exact List.nodup_nil
  | @declared f fs a b x xs hf hrest ih =>
    rw [List.filterMap_cons_some hf] at hdeclared hreserved
    obtain ⟨hx, hdeclared⟩ := List.nodup_cons.1 hdeclared
    have hxs : x ∉ xs := fun hmem =>
      (hrest.declared_or_free hmem).elim hx fun hfree => hfree (hreserved x (.head _))
    exact List.nodup_cons.2 ⟨hxs, ih hdeclared fun y hy => hreserved y (.tail _ hy)⟩
  | @allocated f fs a b c x xs hf hnext hrest ih =>
    rw [List.filterMap_cons_none hf] at hdeclared hreserved
    obtain ⟨-, -, hfree, rfl⟩ := Allocator.nextAddress_ok hnext
    have hxs : x ∉ xs := fun hmem => by
      rcases hrest.declared_or_free hmem with hx | hnew
      · exact hfree (hreserved x hx)
      · exact hnew (Allocator.mem_insert_iff.2 (.inl rfl))
    refine List.nodup_cons.2 ⟨hxs, ih hdeclared fun y hy => ?_⟩
    exact Allocator.mem_insert_iff.2 (.inr (hreserved y hy))

end Assigned

end ReactorDeploy
