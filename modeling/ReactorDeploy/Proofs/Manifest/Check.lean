import ReactorDeploy.Manifest.Check
import Mathlib.Data.List.Nodup
import Mathlib.Data.List.Pairwise

/-!
# What an accepted manifest promises

A manifest is accepted when no problem with it is an error. The checks go through the federates
with what came before in hand; read back as facts about the list of federates, they say that names
are taken once and that no two federates have the same first IPv6 address.
-/

namespace ReactorDeploy

namespace Federate

/-- The well-formed IPv6 addresses that a federate declares, in declaration order. -/
def declaredIpv6s (f : Federate) : List Net.Ipv6 :=
  f.interfaces.filterMap Interface.ipv6?

/-- The first well-formed address is the first of those. -/
theorem head?_declaredIpv6s (f : Federate) : f.declaredIpv6s.head? = f.declaredIpv6? :=
  List.head?_filterMap

/-- An address that a federate declares, but not first, it declares later. -/
theorem mem_tail_declaredIpv6s {f : Federate} {x : Net.Ipv6} (hx : x ∈ f.declaredIpv6s)
    (hfirst : f.declaredIpv6? ≠ some x) : x ∈ f.declaredIpv6s.tail := by
  rw [← head?_declaredIpv6s] at hfirst
  cases hdeclared : f.declaredIpv6s with
  | nil =>
    rw [hdeclared] at hx
    cases hx
  | cons y ys =>
    rw [hdeclared] at hx hfirst
    rcases List.mem_cons.1 hx with rfl | hx
    · exact absurd rfl hfirst
    · exact hx

end Federate

namespace Manifest

/-- Acceptance: there are problems at most, and none of them is an error. -/
theorem check_eq_ok_iff {m : Manifest} {warnings : List Problem} :
    m.check = .ok warnings ↔ warnings = m.problems ∧ ∀ p ∈ m.problems, p.isError = false := by
  unfold check
  split
  · next h =>
    obtain ⟨p, hp, herror⟩ := List.any_eq_true.1 h
    refine ⟨nofun, fun ⟨_, hnone⟩ => ?_⟩
    rw [hnone p hp] at herror
    cases herror
  · next h =>
    have hnone : ∀ p ∈ m.problems, p.isError = false := fun p hp =>
      Bool.eq_false_iff.2 fun herror => h (List.any_eq_true.2 ⟨p, hp, herror⟩)
    exact ⟨fun h => ⟨(Except.ok.inj h).symm, hnone⟩, fun ⟨hw, _⟩ => by rw [hw]⟩

/-! ## Names -/

/-- Names without an error among them are all different, and different from those taken before. -/
theorem nodup_of_nameProblems {taken names : List String}
    (h : ∀ p ∈ nameProblems taken names, p.isError = false) :
    names.Nodup ∧ ∀ name ∈ names, name ∉ taken := by
  induction names generalizing taken with
  | nil => exact ⟨List.nodup_nil, nofun⟩
  | cons name names ih =>
    unfold nameProblems at h
    split at h
    · exact absurd (h _ (.head _)) (by decide)
    split at h
    · exact absurd (h _ (.head _)) nofun
    split at h
    · exact absurd (h _ (.head _)) nofun
    · next hfree =>
      obtain ⟨hnodup, hnew⟩ := ih h
      have hname : name ∉ names := fun hmem => hnew name hmem (.head _)
      refine ⟨List.nodup_cons.2 ⟨hname, hnodup⟩, fun n hn => ?_⟩
      rcases List.mem_cons.1 hn with rfl | hn
      · simpa using hfree
      · exact fun htaken => hnew n hn (.tail _ htaken)

/-- Names without an error among them are none of them blank, and each is one path component. -/
theorem isSinglePathComponent_of_nameProblems {taken names : List String}
    (h : ∀ p ∈ nameProblems taken names, p.isError = false) :
    ∀ name ∈ names, Text.allBlank name = false ∧ isSinglePathComponent name = true := by
  induction names generalizing taken with
  | nil => nofun
  | cons name names ih =>
    unfold nameProblems at h
    split at h
    · exact absurd (h _ (.head _)) (by decide)
    · next hblank =>
      split at h
      · exact absurd (h _ (.head _)) nofun
      · next hcomponent =>
        have hname : Text.allBlank name = false ∧ isSinglePathComponent name = true := by
          simpa using And.intro hblank hcomponent
        split at h
        · exact absurd (h _ (.head _)) nofun
        · exact List.forall_mem_cons.2 ⟨hname, ih h⟩

/-! ## Declared addresses -/

/-- Federates without an error among them have different first addresses, none of which was
declared before. -/
theorem nodup_of_federateProblems {o : TargetOptions} {declared : List (Net.Ipv6 × String)}
    {fs : List Federate} (h : ∀ p ∈ federateProblems o declared fs, p.isError = false) :
    (fs.filterMap Federate.declaredIpv6?).Nodup ∧
      ∀ x ∈ fs.filterMap Federate.declaredIpv6?, declared.lookup x = none := by
  induction fs generalizing declared with
  | nil => exact ⟨List.nodup_nil, nofun⟩
  | cons f fs ih =>
    rw [federateProblems] at h
    split at h
    · next hnone =>
      rw [List.filterMap_cons_none hnone]
      exact ih fun p hp => h p (List.mem_append_right _ hp)
    · next x hx =>
      rw [List.filterMap_cons_some hx]
      obtain ⟨hnodup, hnew⟩ := ih fun p hp => h p (List.mem_append_right _ hp)
      have hother : ∀ y ∈ fs.filterMap Federate.declaredIpv6?,
          y ≠ x ∧ declared.lookup y = none := by
        intro y hy
        have hlookup := hnew y hy
        rw [List.lookup_cons] at hlookup
        split at hlookup
        · cases hlookup
        · next hne => exact ⟨by simpa using hne, hlookup⟩
      have hfirst : declared.lookup x = none := by
        cases hlookup : declared.lookup x with
        | none => rfl
        | some first =>
          rw [hlookup] at h
          exact absurd (h (.addressDeclaredTwice first f.name x) (by simp)) nofun
      refine ⟨List.nodup_cons.2 ⟨fun hmem => (hother x hmem).1 rfl, hnodup⟩, fun y hy => ?_⟩
      rcases List.mem_cons.1 hy with rfl | hy
      · exact hfirst
      · exact (hother y hy).2

section
variable {m : Manifest} {warnings : List Problem}

/-- The names of the federates of an accepted manifest have no error among them. -/
theorem nameProblems_of_check (h : m.check = .ok warnings) :
    ∀ p ∈ nameProblems [] (m.federates.map Federate.name), p.isError = false := by
  obtain ⟨-, hnone⟩ := check_eq_ok_iff.1 h
  exact fun p hp => hnone p (List.mem_append_left _ (List.mem_append_right _ hp))

/-- The federates of an accepted manifest have different names. -/
theorem nodup_names_of_check (h : m.check = .ok warnings) :
    (m.federates.map Federate.name).Nodup :=
  (nodup_of_nameProblems (nameProblems_of_check h)).1

/-- The name of a federate of an accepted manifest is not blank, and is one path component. -/
theorem isSinglePathComponent_of_check (h : m.check = .ok warnings) {f : Federate}
    (hf : f ∈ m.federates) :
    Text.allBlank f.name = false ∧ isSinglePathComponent f.name = true :=
  isSinglePathComponent_of_nameProblems (nameProblems_of_check h) _ (List.mem_map_of_mem hf)

/-- No two federates of an accepted manifest have the same first IPv6 address. -/
theorem nodup_declaredIpv6_of_check (h : m.check = .ok warnings) :
    (m.federates.filterMap Federate.declaredIpv6?).Nodup := by
  obtain ⟨-, hnone⟩ := check_eq_ok_iff.1 h
  have hfederates : ∀ p ∈ federateProblems m.target [] m.federates, p.isError = false :=
    fun p hp => hnone p (List.mem_append_right _ hp)
  exact (nodup_of_federateProblems hfederates).1

/-- In an accepted manifest, the first IPv6 address of a federate tells which federate it is. -/
theorem eq_of_declaredIpv6_of_check (h : m.check = .ok warnings) {f g : Federate}
    (hf : f ∈ m.federates) (hg : g ∈ m.federates) {x : Net.Ipv6} (hfx : f.declaredIpv6? = some x)
    (hgx : g.declaredIpv6? = some x) : f = g := by
  have hpairwise := List.pairwise_filterMap.1 (nodup_declaredIpv6_of_check h)
  by_contra hne
  have : Std.Symm fun f g : Federate =>
      ∀ x, f.declaredIpv6? = some x → ∀ y, g.declaredIpv6? = some y → x ≠ y :=
    ⟨fun _ _ hxy x hx y hy => (hxy y hy x hx).symm⟩
  exact hpairwise.forall hf hg hne x hfx x hgx rfl

end

end Manifest

end ReactorDeploy
