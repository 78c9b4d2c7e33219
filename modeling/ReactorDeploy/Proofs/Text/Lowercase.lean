import ReactorDeploy.Text.Lowercase

/-!
# Lower-casing into ASCII

The lower-case form of a text has more characters in it than capital letters turned into small
ones: a few characters from beyond ASCII have partners within it. None of those is as low as the
letter `f`, though. So a text whose lower-case form stays below that was ASCII itself, and
lower-casing did no more to it than replace its capital letters (`toList_lowercase_of_low`).
-/

namespace ReactorDeploy.Text

/-- A character from the first one behind NUL up to the letter `f`: the digits, the separators of
addresses and the hexadecimal letters are among them. -/
def IsLow (c : Char) : Prop :=
  0 < c.toNat ∧ c.toNat ≤ 'f'.toNat

/-- A capital letter of ASCII and its partner are thirty-two apart. -/
theorem toNat_toLower {c : Char} (h : 'A'.toNat ≤ c.toNat ∧ c.toNat ≤ 'Z'.toNat) :
    c.toLower.toNat = c.toNat + 32 := by
  have hval : c.val ≥ 'A'.val ∧ c.val ≤ 'Z'.val := h
  have hle : c.val.toNat ≤ 90 := h.2
  unfold Char.toLower
  rw [dif_pos hval]
  show (c.val + 32).toNat = c.val.toNat + 32
  rw [UInt32.toNat_add]
  show (c.val.toNat + 32) % 2 ^ 32 = _
  omega

/-- Any other character has no partner in ASCII. -/
theorem toLower_eq_self {c : Char} (h : ¬ ('A'.toNat ≤ c.toNat ∧ c.toNat ≤ 'Z'.toNat)) :
    c.toLower = c := by
  have hval : ¬ (c.val ≥ 'A'.val ∧ c.val ≤ 'Z'.val) := h
  unfold Char.toLower
  rw [dif_neg hval]

/-- A number gives the character with it as a code point, or NUL if there is none. -/
theorem toNat_ofNat_eq_or (n : Nat) : (Char.ofNat n).toNat = n ∨ (Char.ofNat n).toNat = 0 := by
  unfold Char.ofNat
  by_cases h : n.isValidChar
  · rw [dif_pos h]
    exact .inl rfl
  · rw [dif_neg h]
    exact .inr rfl

/-- The capital letters of ASCII come first in the table, and the partners of all the others are
higher than the letter `f`. -/
theorem caseRanges_eq : ∃ others, caseRanges = ⟨0x41, 0x5A, 1, 32⟩ :: others ∧
    ∀ r ∈ others, ('f'.toNat : Int) < r.first + r.shift :=
  ⟨caseRanges.tail, rfl, by decide +kernel⟩

/-- The partner that a range of the table gives to a code point is as far up as the range says, or
is none. -/
theorem le_of_covers {r : CaseRange} {n : Nat} (hcovers : r.covers n = true)
    (hlow : IsLow (Char.ofNat (n + r.shift).toNat)) : (r.first : Int) + r.shift ≤ 'f'.toNat := by
  obtain ⟨hpos, hle⟩ := hlow
  have hfirst : r.first ≤ n := by
    simp only [CaseRange.covers, Bool.and_eq_true, decide_eq_true_eq] at hcovers
    exact hcovers.1.1
  rcases toNat_ofNat_eq_or (n + r.shift).toNat with heq | heq
  · omega
  · omega

/-- The partner of a capital letter of ASCII is the one in ASCII. -/
theorem lowerChar_of_capital {c : Char} (h : 'A'.toNat ≤ c.toNat ∧ c.toNat ≤ 'Z'.toNat) :
    lowerChar c = c.toLower := by
  obtain ⟨others, htable, -⟩ := caseRanges_eq
  have hcovers : CaseRange.covers ⟨0x41, 0x5A, 1, 32⟩ c.toNat = true := by
    simpa [CaseRange.covers, Nat.mod_one] using h
  rw [lowerChar, htable, List.find?_cons, hcovers]
  show Char.ofNat (c.toNat + 32) = c.toLower
  rw [← toNat_toLower h, Char.ofNat_toNat]

/-- A character whose partner is low is a capital letter of ASCII, or its own partner. -/
theorem lowerChar_of_low {c : Char} (h : IsLow (lowerChar c)) : lowerChar c = c.toLower := by
  by_cases hcapital : 'A'.toNat ≤ c.toNat ∧ c.toNat ≤ 'Z'.toNat
  · exact lowerChar_of_capital hcapital
  · obtain ⟨others, htable, hhigh⟩ := caseRanges_eq
    have hcovers : CaseRange.covers ⟨0x41, 0x5A, 1, 32⟩ c.toNat = false := by
      simpa [CaseRange.covers, Nat.mod_one] using hcapital
    rw [toLower_eq_self hcapital]
    unfold lowerChar at h ⊢
    rw [htable, List.find?_cons, hcovers] at h ⊢
    cases hfound : others.find? (·.covers c.toNat) with
    | none => rfl
    | some r =>
      rw [hfound] at h
      have hcovered : r.covers c.toNat = true := (List.find?_eq_some_iff_append.1 hfound).1
      have hle := le_of_covers hcovered h
      have hlt := hhigh r (List.mem_of_find?_eq_some hfound)
      omega

/-- Where a text becomes low in lower case, each character becomes its partner in ASCII. -/
theorem lowerAt_of_low {before after : List Char} {c : Char}
    (h : ∀ d ∈ lowerAt before c after, IsLow d) : lowerAt before c after = [c.toLower] := by
  have hhigh : ∀ d : Char, 'f'.toNat < d.toNat → d ∉ lowerAt before c after := fun d hd hmem =>
    Nat.not_le.2 hd (h d hmem).2
  unfold lowerAt at h hhigh ⊢
  split
  · next hdotted =>
    rw [if_pos hdotted] at hhigh
    exact absurd (.head _) (hhigh 'i' (by decide))
  · next hdotted =>
    rw [if_neg hdotted] at h hhigh
    split
    · next hsigma =>
      rw [if_pos hsigma] at hhigh
      split
      · next hfinal =>
        rw [if_pos hfinal] at hhigh
        exact absurd (.head _) (hhigh 'ς' (by decide))
      · next hfinal =>
        rw [if_neg hfinal] at hhigh
        exact absurd (.head _) (hhigh 'σ' (by decide))
    · next hsigma =>
      rw [if_neg hsigma] at h
      rw [lowerChar_of_low (h _ (.head _))]

theorem lowerFrom_of_low {before cs : List Char} (h : ∀ d ∈ lowerFrom before cs, IsLow d) :
    lowerFrom before cs = cs.map Char.toLower := by
  induction cs generalizing before with
  | nil => rfl
  | cons c cs ih =>
    rw [lowerFrom] at h ⊢
    have hhere := lowerAt_of_low fun d hd => h d (List.mem_append_left _ hd)
    have hrest := ih fun d hd => h d (List.mem_append_right _ hd)
    rw [hhere, hrest, List.map_cons, List.singleton_append]

/-- A text that is low in lower case has had its capital letters replaced, and nothing else. -/
theorem toList_lowercase_of_low {s : String} (h : ∀ d ∈ (lowercase s).toList, IsLow d) :
    (lowercase s).toList = s.toList.map Char.toLower := by
  rw [lowercase, String.toList_ofList] at h ⊢
  exact lowerFrom_of_low h

end ReactorDeploy.Text
