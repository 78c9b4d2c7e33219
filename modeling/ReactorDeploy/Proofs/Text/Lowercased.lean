import ReactorDeploy.Proofs.Text.Lowercase
import ReactorDeploy.Proofs.Text.Scan

/-!
# Lower-cased texts

Lower-casing gives back what it is given in lower case (`lowercase_lowercase`). The partner of a
capital letter is no capital letter itself, nor is it one of the characters with rules of their own,
so a lower-cased text consists of characters that stay as they are wherever they stand
(`IsLowered`).

Lower-casing makes no blank out of anything else either. The ends of a trimmed text are therefore
the ends of a trimmed text in lower case, too (`trim_lowercase_trim`).

Both rest on the table of capital letters, of which it has to be known that no partner in it is a
capital letter or a blank. Sets of code points are compared for that as the numbers with these bits
set (`bits`).
-/

namespace ReactorDeploy.Text

/-! ## Sets of numbers as bits -/

/-- The number whose bits at the given places are set. -/
def bits (ns : List Nat) : Nat :=
  ns.foldr (fun n m => 1 <<< n ||| m) 0

theorem testBit_bits {ns : List Nat} {n : Nat} : (bits ns).testBit n = true ↔ n ∈ ns := by
  induction ns with
  | nil => simp [bits]
  | cons k ns ih =>
    have hcons : bits (k :: ns) = 1 <<< k ||| bits ns := rfl
    rw [hcons, Nat.testBit_or, Bool.or_eq_true, ih, List.mem_cons, Nat.one_shiftLeft,
      Nat.testBit_two_pow, decide_eq_true_iff, eq_comm]

/-- Two lists of numbers have none in common if their bits have none in common. -/
theorem notMem_of_bits {ns ms : List Nat} (h : bits ns &&& bits ms = 0) {n : Nat} (hn : n ∈ ns) :
    n ∉ ms := by
  intro hm
  have hboth : (bits ns &&& bits ms).testBit n = true := by
    rw [Nat.testBit_and, testBit_bits.2 hn, testBit_bits.2 hm]
    rfl
  rw [h, Nat.zero_testBit] at hboth
  cases hboth

/-! ## The table -/

/-- The code points of the upper-case characters in a range. -/
def CaseRange.codePoints (r : CaseRange) : List Nat :=
  (List.range ((r.last - r.first) / r.step + 1)).map fun k => r.first + r.step * k

/-- The code points of all characters with a lower-case partner. -/
def capitals : List Nat :=
  caseRanges.flatMap CaseRange.codePoints

/-- The characters that the rules for the dotted capital I and for sigma write. -/
def specialForms : List Char :=
  ['i', '\u0307', 'ς', 'σ']

/-- The code points of what is written in place of capital letters: the partners, the forms of the
special rules, and zero, which stands for a partner that is no character. -/
def replacements : List Nat :=
  0 :: specialForms.map Char.toNat ++
    caseRanges.flatMap fun r => r.codePoints.map fun n : Nat => ((n : Int) + r.shift).toNat

/-- The code points of blanks. -/
def blanks : List Nat :=
  List.range' 9 5 ++ [0x20, 0x85, 0xA0, 0x1680] ++ List.range' 0x2000 11 ++
    [0x2028, 0x2029, 0x202F, 0x205F, 0x3000]

/-- A character whose code point is in a range is one of those of the range. -/
theorem CaseRange.mem_codePoints {r : CaseRange} {n : Nat} (h : r.covers n = true) :
    n ∈ r.codePoints := by
  simp only [covers, Bool.and_eq_true, decide_eq_true_eq, beq_iff_eq] at h
  obtain ⟨⟨hfirst, hlast⟩, hstep⟩ := h
  have hdvd : r.step ∣ n - r.first := Nat.dvd_of_mod_eq_zero hstep
  refine List.mem_map.2 ⟨(n - r.first) / r.step, List.mem_range.2 ?_, ?_⟩
  · exact Nat.lt_succ_of_le (Nat.div_le_div_right (by omega))
  · rw [Nat.mul_div_cancel' hdvd]
    omega

theorem mem_blanks {c : Char} (h : isBlank c = true) : c.toNat ∈ blanks := by
  simp only [isBlank, Bool.or_eq_true, Bool.and_eq_true, decide_eq_true_eq, beq_iff_eq] at h
  simp only [blanks, List.mem_append, List.mem_range'_1, List.mem_cons, List.not_mem_nil, or_false]
  omega

/-- Nothing that is written in place of a capital letter is a capital letter or a blank. -/
theorem notMem_of_mem_replacements {n : Nat} (h : n ∈ replacements) :
    n ∉ 'İ'.toNat :: blanks ++ capitals :=
  notMem_of_bits (by decide +kernel) h

/-! ## Characters -/

/-- A character that lower-casing leaves as it is wherever it stands: it has no partner, and it is
not the dotted capital I. -/
structure IsLowered (c : Char) : Prop where
  covers : ∀ r ∈ caseRanges, r.covers c.toNat = false
  ne_dotted : c ≠ 'İ'

/-- A character without a partner becomes itself, and any other one becomes its partner. -/
theorem lowerChar_cases (c : Char) :
    (lowerChar c = c ∧ ∀ r ∈ caseRanges, r.covers c.toNat = false) ∨
      (lowerChar c).toNat ∈ replacements := by
  unfold lowerChar
  cases hfound : caseRanges.find? (·.covers c.toNat) with
  | none => exact .inl ⟨rfl, fun r hr => by simpa using List.find?_eq_none.1 hfound r hr⟩
  | some r =>
    have hr : r ∈ caseRanges := List.mem_of_find?_eq_some hfound
    have hcode : c.toNat ∈ r.codePoints :=
      CaseRange.mem_codePoints (List.find?_eq_some_iff_append.1 hfound).1
    right
    rcases toNat_ofNat_eq_or (c.toNat + r.shift).toNat with heq | heq
    · rw [heq]
      exact List.mem_append_right _ (List.mem_flatMap.2 ⟨r, hr, List.mem_map_of_mem hcode⟩)
    · rw [heq]
      exact .head _

/-- What is written in place of a capital letter is lower-cased, and no blank. -/
theorem isLowered_of_mem_replacements {c : Char} (h : c.toNat ∈ replacements) :
    IsLowered c ∧ isBlank c = false := by
  have hother := notMem_of_mem_replacements h
  refine ⟨⟨fun r hr => ?_, ?_⟩, ?_⟩
  · refine Bool.eq_false_iff.2 fun hcovers => hother (List.mem_append_right _ ?_)
    exact List.mem_flatMap.2 ⟨r, hr, CaseRange.mem_codePoints hcovers⟩
  · rintro rfl
    exact hother (.head _)
  · exact Bool.eq_false_iff.2 fun hblank =>
      hother (List.mem_append_left _ (.tail _ (mem_blanks hblank)))

/-- What a character becomes is the character itself, which has no partner then, or is written in
place of a capital letter. -/
theorem mem_lowerAt_cases {before after : List Char} {c d : Char}
    (hd : d ∈ lowerAt before c after) : (d = c ∧ IsLowered c) ∨ d.toNat ∈ replacements := by
  have hspecial : ∀ {cs : List Char}, cs ⊆ specialForms → d ∈ cs → d.toNat ∈ replacements :=
    fun hcs hd => List.mem_append_left _ (.tail _ (List.mem_map_of_mem (hcs hd)))
  unfold lowerAt at hd
  split at hd
  · exact .inr (hspecial (by decide) hd)
  · next hdotted =>
    split at hd
    · split at hd
      · exact .inr (hspecial (by decide) hd)
      · exact .inr (hspecial (by decide) hd)
    · obtain rfl := List.mem_singleton.1 hd
      exact (lowerChar_cases c).imp_left fun ⟨heq, hcovers⟩ => ⟨heq, hcovers, hdotted⟩

/-- Whatever a character becomes is lower-cased. -/
theorem isLowered_of_mem_lowerAt {before after : List Char} {c d : Char}
    (hd : d ∈ lowerAt before c after) : IsLowered d := by
  rcases mem_lowerAt_cases hd with ⟨rfl, hlowered⟩ | hreplaced
  · exact hlowered
  · exact (isLowered_of_mem_replacements hreplaced).1

/-- A character that is no blank becomes none. -/
theorem isBlank_of_mem_lowerAt {before after : List Char} {c d : Char}
    (hd : d ∈ lowerAt before c after) (hc : isBlank c = false) : isBlank d = false := by
  rcases mem_lowerAt_cases hd with ⟨rfl, -⟩ | hreplaced
  · exact hc
  · exact (isLowered_of_mem_replacements hreplaced).2

/-- A lower-cased character becomes itself. -/
theorem lowerAt_of_isLowered {before after : List Char} {c : Char} (h : IsLowered c) :
    lowerAt before c after = [c] := by
  have hsigma : c ≠ 'Σ' := by
    rintro rfl
    have hcovered : ∃ r ∈ caseRanges, r.covers 'Σ'.toNat = true := by decide +kernel
    obtain ⟨r, hr, hcovers⟩ := hcovered
    rw [h.covers r hr] at hcovers
    cases hcovers
  have hlower : lowerChar c = c := by
    have hnone : caseRanges.find? (·.covers c.toNat) = none :=
      List.find?_eq_none.2 fun r hr => by simpa using h.covers r hr
    rw [lowerChar, hnone]
  rw [lowerAt, if_neg h.ne_dotted, if_neg hsigma, hlower]

/-! ## Texts -/

theorem isLowered_of_mem_lowerFrom {before cs : List Char} :
    ∀ d ∈ lowerFrom before cs, IsLowered d := by
  induction cs generalizing before with
  | nil => nofun
  | cons c cs ih =>
    intro d hd
    rw [lowerFrom, List.mem_append] at hd
    exact hd.elim isLowered_of_mem_lowerAt (ih d)

theorem lowerFrom_of_isLowered {before cs : List Char} (h : ∀ c ∈ cs, IsLowered c) :
    lowerFrom before cs = cs := by
  induction cs generalizing before with
  | nil => rfl
  | cons c cs ih =>
    rw [lowerFrom, lowerAt_of_isLowered (h c (.head _)), ih fun d hd => h d (.tail _ hd)]
    rfl

/-- The lower-case form of a text is its own lower-case form. -/
theorem lowercase_lowercase (s : String) : lowercase (lowercase s) = lowercase s := by
  rw [lowercase, lowercase, String.toList_ofList, lowerFrom_of_isLowered isLowered_of_mem_lowerFrom]

/-! ## Blanks at the ends -/

theorem lowerAt_ne_nil (before : List Char) (c : Char) (after : List Char) :
    lowerAt before c after ≠ [] := by
  unfold lowerAt
  split_ifs <;> exact List.cons_ne_nil _ _

/-- A text that does not start with a blank does not do so in lower case. -/
theorem stops_lowerFrom {before cs : List Char} (h : Stops isBlank cs) :
    Stops isBlank (lowerFrom before cs) := by
  cases cs with
  | nil => exact stops_nil
  | cons c cs =>
    intro d hd
    rw [lowerFrom, List.head?_append, Option.or_of_isSome
      (List.isSome_head?.2 (lowerAt_ne_nil _ _ _))] at hd
    exact isBlank_of_mem_lowerAt (List.mem_of_mem_head? hd) (stops_cons.1 h)

/-- What a text ends with in lower case is what its last character becomes. -/
theorem exists_lowerFrom_concat (before cs : List Char) (c : Char) :
    ∃ front before', lowerFrom before (cs ++ [c]) = front ++ lowerAt before' c [] := by
  induction cs generalizing before with
  | nil => exact ⟨[], before, by rw [List.nil_append, lowerFrom, lowerFrom, List.append_nil]; rfl⟩
  | cons d cs ih =>
    obtain ⟨front, before', heq⟩ := ih (d :: before)
    exact ⟨_, before', by rw [List.cons_append, lowerFrom, heq, List.append_assoc]⟩

/-- A text that does not end with a blank does not do so in lower case. -/
theorem stops_reverse_lowerFrom {before cs : List Char} (h : Stops isBlank cs.reverse) :
    Stops isBlank (lowerFrom before cs).reverse := by
  rcases List.eq_nil_or_concat cs with rfl | ⟨init, c, rfl⟩
  · exact stops_nil
  · rw [List.concat_eq_append, List.reverse_append] at h
    obtain ⟨front, before', heq⟩ := exists_lowerFrom_concat before init c
    intro d hd
    rw [List.concat_eq_append, heq, List.head?_reverse, List.getLast?_append, Option.or_of_isSome
      (List.getLast?_isSome.2 (lowerAt_ne_nil _ _ _))] at hd
    exact isBlank_of_mem_lowerAt (List.mem_of_mem_getLast? hd) (stops_cons.1 h)

/-- A trimmed text has nothing to trim in lower case either. -/
theorem trim_lowercase_trim (s : String) : trim (lowercase (trim s)) = lowercase (trim s) := by
  have hstart : Stops isBlank (trimChars s.toList) := (stops_dropWhile isBlank _).dropTail
  have hend : Stops isBlank (trimChars s.toList).reverse := stops_reverse_dropTail isBlank _
  rw [lowercase, trim, trim, String.toList_ofList, String.toList_ofList]
  rw [trimChars, (stops_lowerFrom hstart).dropWhile_eq_self,
    dropTail_eq_self (stops_reverse_lowerFrom hend)]

end ReactorDeploy.Text
