import ReactorDeploy.Proofs.Text.Lowercased

/-!
# Spellings of a name

Names are compared trimmed and in lower case. So a name can be spelled with blanks around it and
with its ASCII letters in either case (`Respelling`), and all its spellings are compared as one text
(`Respelling.lowercase_trim_eq`).

That needs a word on the final sigma, as the form of a sigma depends on the text around it. The rule
for it asks of the characters there whether they have case and whether they are to be passed over,
and of a letter of ASCII it gets the same answers in either case (`isCased_toLower`,
`isCaseIgnorable_toLower`).
-/

namespace ReactorDeploy.Text

/-! ## Letters in either case -/

theorem isBlank_toLower (c : Char) : isBlank c.toLower = isBlank c := by
  by_cases hcapital : 'A'.toNat ≤ c.toNat ∧ c.toNat ≤ 'Z'.toNat
  · have hlower := toNat_toLower hcapital
    have hA : 'A'.toNat = 65 := rfl
    have hZ : 'Z'.toNat = 90 := rfl
    rw [Bool.eq_iff_iff]
    simp only [isBlank, Bool.or_eq_true, Bool.and_eq_true, decide_eq_true_eq, beq_iff_eq]
    omega
  · rw [toLower_eq_self hcapital]

theorem inRanges_of_mem {ranges : List (Nat × Nat)} {r : Nat × Nat} {n : Nat} (hr : r ∈ ranges)
    (hfirst : r.1 ≤ n) (hlast : n ≤ r.2) : inRanges ranges n = true :=
  List.any_eq_true.2 ⟨r, hr, by simp [hfirst, hlast]⟩

theorem inRanges_eq_false {ranges : List (Nat × Nat)} {n : Nat}
    (h : ∀ r ∈ ranges, n < r.1 ∨ r.2 < n) : inRanges ranges n = false := by
  refine List.any_eq_false.2 fun r hr => ?_
  have hout := h r hr
  simp only [Bool.and_eq_true, decide_eq_true_eq]
  omega

/-- Letters of ASCII are cased, the capital ones and the small ones. -/
theorem isCased_toLower (c : Char) : isCased c.toLower = isCased c := by
  by_cases hcapital : 'A'.toNat ≤ c.toNat ∧ c.toNat ≤ 'Z'.toNat
  · have hlower := toNat_toLower hcapital
    obtain ⟨hA, hZ⟩ := hcapital
    have hcapitals : ('A'.toNat, 'Z'.toNat) ∈ casedRanges := by decide +kernel
    have hsmall : ('a'.toNat, 'z'.toNat) ∈ casedRanges := by decide +kernel
    have hfirst : 'a'.toNat = 'A'.toNat + 32 := rfl
    have hlast : 'z'.toNat = 'Z'.toNat + 32 := rfl
    rw [isCased, isCased, inRanges_of_mem hcapitals hA hZ]
    exact inRanges_of_mem hsmall (by omega) (by omega)
  · rw [toLower_eq_self hcapital]

/-- No letter of ASCII is passed over, neither a capital one nor a small one. -/
theorem isCaseIgnorable_toLower (c : Char) : isCaseIgnorable c.toLower = isCaseIgnorable c := by
  by_cases hcapital : 'A'.toNat ≤ c.toNat ∧ c.toNat ≤ 'Z'.toNat
  · have hlower := toNat_toLower hcapital
    obtain ⟨hA, hZ⟩ := hcapital
    have hout : ∀ r ∈ caseIgnorableRanges, (r.2 < 'A'.toNat ∨ 'Z'.toNat < r.1) ∧
        (r.2 < 'A'.toNat + 32 ∨ 'Z'.toNat + 32 < r.1) := by decide +kernel
    rw [isCaseIgnorable, isCaseIgnorable,
      inRanges_eq_false (n := c.toNat) fun r hr => by have := (hout r hr).1; omega]
    exact inRanges_eq_false fun r hr => by have := (hout r hr).2; omega
  · rw [toLower_eq_self hcapital]

/-! ## Texts in either case -/

/-- A scan for a property that letters have in either case leaves the letters of the same places. -/
theorem dropWhile_map_toLower {p : Char → Bool} (hp : ∀ c, p c.toLower = p c) (cs : List Char) :
    (cs.map Char.toLower).dropWhile p = (cs.dropWhile p).map Char.toLower := by
  have hcomp : p ∘ Char.toLower = p := funext hp
  rw [List.dropWhile_map, hcomp]

theorem startsCased_map_toLower (cs : List Char) :
    startsCased (cs.map Char.toLower) = startsCased cs := by
  rw [startsCased, startsCased, dropWhile_map_toLower isCaseIgnorable_toLower]
  cases cs.dropWhile isCaseIgnorable with
  | nil => rfl
  | cons c _ => exact isCased_toLower c

/-- A letter becomes the same in either case, whatever the case of the letters around it. -/
theorem lowerAt_map_toLower (before : List Char) (c : Char) (after : List Char) :
    lowerAt (before.map Char.toLower) c.toLower (after.map Char.toLower) = lowerAt before c after := by
  by_cases hcapital : 'A'.toNat ≤ c.toNat ∧ c.toNat ≤ 'Z'.toNat
  -- No rule but the table applies to a capital letter, and its small letter stays as it is.
  · have hdotted : c ≠ 'İ' := by
      rintro rfl
      exact absurd hcapital (by decide)
    have hsigma : c ≠ 'Σ' := by
      rintro rfl
      exact absurd hcapital (by decide)
    have hlower : lowerAt before c after = [c.toLower] := by
      rw [lowerAt, if_neg hdotted, if_neg hsigma, lowerChar_of_capital hcapital]
    have hmem : c.toLower ∈ lowerAt before c after := by
      rw [hlower]
      exact .head _
    have hlowered : IsLowered c.toLower := isLowered_of_mem_lowerAt hmem
    rw [hlower, lowerAt_of_isLowered hlowered]
  · rw [toLower_eq_self hcapital, lowerAt, lowerAt, startsCased_map_toLower,
      startsCased_map_toLower]

theorem lowerFrom_map_toLower (before cs : List Char) :
    lowerFrom (before.map Char.toLower) (cs.map Char.toLower) = lowerFrom before cs := by
  induction cs generalizing before with
  | nil => rfl
  | cons c cs ih =>
    have hrest := ih (c :: before)
    rw [List.map_cons] at hrest ⊢
    rw [lowerFrom, lowerFrom, lowerAt_map_toLower, hrest]

theorem trimChars_map_toLower (cs : List Char) :
    trimChars (cs.map Char.toLower) = (trimChars cs).map Char.toLower := by
  simp only [trimChars, dropTail, dropWhile_map_toLower isBlank_toLower, ← List.map_reverse]

/-! ## Padding -/

/-- Blanks around a text are trimmed off with those that it has itself. -/
theorem trimChars_padded {before after : List Char} (cs : List Char)
    (hbefore : ∀ c ∈ before, isBlank c = true) (hafter : ∀ c ∈ after, isBlank c = true) :
    trimChars (before ++ cs ++ after) = trimChars cs := by
  rw [trimChars, trimChars, List.append_assoc, List.dropWhile_append_of_pos hbefore,
    List.dropWhile_append]
  split
  · next hnil =>
    rw [List.isEmpty_iff.1 hnil, List.dropWhile_eq_nil_iff.2 hafter]
  · rw [dropTail, dropTail, List.reverse_append,
      List.dropWhile_append_of_pos fun c hc => hafter c (List.mem_reverse.1 hc)]

/-! ## Spellings -/

/-- Two texts differ in the blanks around them and in the case of ASCII letters only. -/
inductive Respelling : String → String → Prop
  | padded (before s after : String) : (∀ c ∈ before.toList, isBlank c = true) →
      (∀ c ∈ after.toList, isBlank c = true) → Respelling s (before ++ s ++ after)
  | recased (s t : String) : s.toList.map Char.toLower = t.toList.map Char.toLower →
      Respelling s t
  | symm {s t : String} : Respelling s t → Respelling t s
  | trans {s t u : String} : Respelling s t → Respelling t u → Respelling s u

/-- However a name is spelled, it is compared as one text. -/
theorem Respelling.lowercase_trim_eq {s t : String} (h : Respelling s t) :
    lowercase (trim s) = lowercase (trim t) := by
  induction h with
  | padded before s after hbefore hafter =>
    rw [trim, trim, String.toList_append, String.toList_append, trimChars_padded _ hbefore hafter]
  | recased s t hst =>
    have hrecased : ∀ s : String, lowercase (trim s) =
        String.ofList (lowerFrom [] (trimChars (s.toList.map Char.toLower))) := by
      intro s
      rw [trimChars_map_toLower, lowercase, trim, String.toList_ofList]
      exact congrArg _ (lowerFrom_map_toLower [] _).symm
    rw [hrecased s, hrecased t, hst]
  | symm _ ih => exact ih.symm
  | trans _ _ ihst ihtu => exact ihst.trans ihtu

end ReactorDeploy.Text
