import ReactorDeploy.Net.Ipv4
import ReactorDeploy.Proofs.Text.Scan
import Mathlib.Tactic.IntervalCases

/-!
# Digits read back

A number written in a base up to sixteen is read back from its digits (`digitsValue_toDigits`).
What readers ask of a run of digits besides its value follows from how numbers are written: each
digit is one of the base, there is at least one, and the first one is a zero only in zero itself.
-/

namespace ReactorDeploy.Net

/-- A digit has the value it is written for. -/
theorem hexValue?_digitChar {n : Nat} (h : n < 16) : hexValue? n.digitChar = some n := by
  interval_cases n <;> rfl

/-- One more digit at the end counts as one unit. -/
theorem digitsValue_append_digitChar {base d : Nat} (cs : List Char) (hd : d < 16) :
    digitsValue base (cs ++ [d.digitChar]) = base * digitsValue base cs + d := by
  simp [digitsValue, hexValue?_digitChar hd]

/-- The digits of a number denote it. -/
theorem digitsValue_toDigits {base : Nat} (h₁ : 1 < base) (h₁₆ : base ≤ 16) (n : Nat) :
    digitsValue base (Nat.toDigits base n) = n := by
  induction n using Nat.strongRecOn with
  | ind n ih =>
    rcases Nat.lt_or_ge n base with hn | hn
    · rw [Nat.toDigits_of_lt_base hn, ← List.nil_append [n.digitChar],
        digitsValue_append_digitChar _ (by omega)]
      simp [digitsValue]
    · have hlt : n / base < n := Nat.div_lt_self (by omega) h₁
      have hmod : n % base < 16 := lt_of_lt_of_le (Nat.mod_lt n (by omega)) h₁₆
      rw [Nat.toDigits_of_base_le h₁ hn, digitsValue_append_digitChar _ hmod, ih _ hlt]
      exact Nat.div_add_mod n base

/-- Every digit of a number is below the base. -/
theorem exists_of_mem_toDigits {base : Nat} (h₁ : 1 < base) {n : Nat} {c : Char}
    (h : c ∈ Nat.toDigits base n) : ∃ d < base, c = d.digitChar := by
  induction n using Nat.strongRecOn with
  | ind n ih =>
    rcases Nat.lt_or_ge n base with hn | hn
    · rw [Nat.toDigits_of_lt_base hn, List.mem_singleton] at h
      exact ⟨n, hn, h⟩
    · rw [Nat.toDigits_of_base_le h₁ hn, List.mem_append, List.mem_singleton] at h
      rcases h with h | h
      · exact ih _ (Nat.div_lt_self (by omega) h₁) h
      · exact ⟨n % base, Nat.mod_lt n (by omega), h⟩

/-- Every digit of a number is a hexadecimal one. -/
theorem isSome_hexValue?_of_mem_toDigits {base : Nat} (h₁ : 1 < base) (h₁₆ : base ≤ 16) {n : Nat}
    {c : Char} (h : c ∈ Nat.toDigits base n) : (hexValue? c).isSome := by
  obtain ⟨d, hd, rfl⟩ := exists_of_mem_toDigits h₁ h
  rw [hexValue?_digitChar (by omega)]
  rfl

/-- A decimal digit of a number passes for one. -/
theorem isDigit_of_mem_toDigits_ten {n : Nat} {c : Char} (h : c ∈ Nat.toDigits 10 n) :
    c.isDigit :=
  Nat.isDigit_of_mem_toDigits (by omega) (by omega) h

/-- Only zero is written with a leading zero. -/
theorem head?_toDigits_ne_zero {base : Nat} (h₁ : 1 < base) {n : Nat} (hn : 0 < n) :
    (Nat.toDigits base n).head? ≠ some '0' := by
  induction n using Nat.strongRecOn with
  | ind n ih =>
    rcases Nat.lt_or_ge n base with hlt | hge
    · rw [Nat.toDigits_of_lt_base hlt]
      simpa using Nat.ne_of_gt hn
    · have hdiv : 0 < n / base := Nat.div_pos hge (by omega)
      have hhead := ih _ (Nat.div_lt_self hn h₁) hdiv
      rw [Nat.toDigits_of_base_le h₁ hge, List.head?_append]
      cases hds : Nat.toDigits base (n / base) with
      | nil => exact absurd hds Nat.toDigits_ne_nil
      | cons c cs => simpa [hds] using hhead

end ReactorDeploy.Net

namespace ReactorDeploy

/-- A number ends with no blank. -/
theorem exists_getLast?_toDigits (n : Nat) :
    ∃ c, (Nat.toDigits 10 n).getLast? = some c ∧ Text.isBlank c = false := by
  obtain ⟨c, hc⟩ := List.getLast?_isSome.2 (Nat.toDigits_ne_nil (b := 10) (n := n))
    |> Option.isSome_iff_exists.1
  obtain ⟨d, hd, rfl⟩ := Net.exists_of_mem_toDigits (by omega) (List.mem_of_getLast? hc)
  have hdigits : ∀ d < 10, Text.isBlank d.digitChar = false := by decide
  exact ⟨_, hc, hdigits d hd⟩

/-- No line feed is in a number. -/
theorem lineFeed_notMem_toDigits (n : Nat) : '\n' ∉ Nat.toDigits 10 n := by
  intro hmem
  have hdigit := Net.isDigit_of_mem_toDigits_ten hmem
  revert hdigit
  decide

end ReactorDeploy
