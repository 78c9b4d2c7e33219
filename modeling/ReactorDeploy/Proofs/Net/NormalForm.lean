import ReactorDeploy.Net.Address
import ReactorDeploy.Proofs.Net.Ipv6

/-!
# Normal forms of IPv6 addresses

However an IPv6 address is spelt, the normal form of the text is the address as it is written
(`normalForm_of_parse?`); so two texts that denote the same address have the same normal form. The
written form is its own normal form, since nothing in it is blank.
-/

namespace ReactorDeploy.Net

/-- A text that denotes an IPv6 address denotes it among the addresses of either version. -/
theorem Address.parse?_of_ipv6 {s : String} {x : Ipv6} (h : Ipv6.parse? s = some x) :
    Address.parse? s = some (.v6 x) := by
  rw [Address.parse?, Ipv4.parse?_eq_none_of_colon (Ipv6.colon_mem_of_parse? h), h]
  rfl

/-- A text that denotes an IPv6 address looks like one. -/
theorem looksLikeIpv6_of_parse? {s : String} {x : Ipv6} (h : Ipv6.parse? s = some x) :
    looksLikeIpv6 s = true := by
  rw [looksLikeIpv6, Address.parse?_of_ipv6 h]
  rfl

/-- The normal form of a text that denotes an IPv6 address is the written form of that address. -/
theorem normalForm_of_parse? {s : String} {x : Ipv6} (h : Ipv6.parse? (Text.trim s) = some x) :
    normalForm s = x.text := by
  have haddress := Address.parse?_of_ipv6 h
  unfold normalForm
  simp only [haddress]
  rfl

/-- Trimming does not change the normal form. -/
theorem normalForm_trim (s : String) : normalForm (Text.trim s) = normalForm s := by
  unfold normalForm
  rw [Text.trim_trim]

namespace Ipv6

/-! ## The characters of a written address -/

section
variable {P : Char → Prop}

/-- What holds of digits holds of everything in a number. -/
theorem forall_mem_toDigits (hdigit : ∀ d < 16, P (Nat.digitChar d)) {base : Nat} (h₁ : 1 < base)
    (h₁₆ : base ≤ 16) (n : Nat) : ∀ c ∈ Nat.toDigits base n, P c := by
  intro c hc
  obtain ⟨d, hd, rfl⟩ := exists_of_mem_toDigits h₁ hc
  exact hdigit d (by omega)

/-- What holds of digits and colons holds of everything in a run of groups. -/
theorem forall_mem_runChars (hdigit : ∀ d < 16, P (Nat.digitChar d)) (hcolon : P ':')
    (first : Bool) (gs : List UInt16) : ∀ c ∈ runChars first gs, P c := by
  induction gs generalizing first with
  | nil =>
    intro c hc
    cases first <;> cases hc
  | cons g gs ih =>
    have hgroups : ∀ c ∈ Nat.toDigits 16 g.toNat ++ runChars false gs, P c := fun c hc =>
      (List.mem_append.1 hc).elim (forall_mem_toDigits hdigit (by omega) (by omega) _ c)
        (ih false c)
    cases first with
    | true => exact hgroups
    | false => exact List.forall_mem_cons.2 ⟨hcolon, hgroups⟩

/-- What holds of digits and dots holds of everything in a written IPv4 address. -/
theorem forall_mem_ipv4_text (hdigit : ∀ d < 16, P (Nat.digitChar d)) (hdot : P '.') (v : Ipv4) :
    ∀ c ∈ v.text.toList, P c := by
  have hoctet : ∀ n, ∀ c ∈ Nat.toDigits 10 n, P c := fun n =>
    forall_mem_toDigits hdigit (by omega) (by omega) n
  intro c hc
  simp only [Ipv4.toList_text, List.mem_append, List.mem_cons] at hc
  rcases hc with hc | rfl | hc | rfl | hc | rfl | hc
  all_goals first
    | exact hdot
    | exact hoctet _ c hc

/-- What holds of digits, colons and dots holds of everything in a written address. -/
theorem forall_mem_text (hdigit : ∀ d < 16, P (Nat.digitChar d)) (hcolon : P ':') (hdot : P '.')
    (x : Ipv6) : ∀ c ∈ x.text.toList, P c := by
  have hgroups : ∀ gs, ∀ c ∈ runChars true gs, P c := forall_mem_runChars hdigit hcolon true
  intro c hc
  unfold text at hc
  split at hc
  · rw [String.toList_append, List.mem_append] at hc
    rcases hc with hc | hc
    · have hf : P 'f' := hdigit 15 (by omega)
      have hmapped : "::ffff:".toList = [':', ':', 'f', 'f', 'f', 'f', ':'] := by simp
      rw [hmapped] at hc
      simp only [List.mem_cons, List.not_mem_nil, or_false] at hc
      rcases hc with rfl | rfl | rfl | rfl | rfl | rfl | rfl
      all_goals first
        | exact hcolon
        | exact hf
    · exact forall_mem_ipv4_text hdigit hdot _ c hc
  · dsimp only at hc
    split at hc
    · simp only [String.toList_append, List.mem_append, toList_groupsText] at hc
      rcases hc with (hc | hc) | hc
      · exact hgroups _ c hc
      · have hgap : "::".toList = [':', ':'] := by simp
        rw [hgap] at hc
        simp only [List.mem_cons, List.not_mem_nil, or_false, or_self] at hc
        exact hc ▸ hcolon
      · exact hgroups _ c hc
    · rw [toList_groupsText] at hc
      exact hgroups _ c hc

end

/-- A digit is no blank. -/
theorem isBlank_digitChar {d : Nat} (hd : d < 16) : Text.isBlank d.digitChar = false := by
  interval_cases d <;> rfl

/-- Nothing in a written address is blank. -/
theorem isBlank_of_mem_text {x : Ipv6} {c : Char} (h : c ∈ x.text.toList) :
    Text.isBlank c = false :=
  forall_mem_text (P := fun c => Text.isBlank c = false) (fun _ => isBlank_digitChar) rfl rfl x c h

/-- Nothing is trimmed off a written address. -/
@[simp] theorem trim_text (x : Ipv6) : Text.trim x.text = x.text :=
  Text.trim_eq_self fun _ h => isBlank_of_mem_text h

/-- The written form of an address is its own normal form. -/
@[simp] theorem normalForm_text (x : Ipv6) : normalForm x.text = x.text :=
  normalForm_of_parse? (by rw [trim_text, parse?_text])

end Ipv6

end ReactorDeploy.Net
