import ReactorDeploy.Proofs.Text.Digits
import ReactorDeploy.Proofs.Text.Scan
import ReactorDeploy.Toml.Scalar

/-!
# Written numbers read back

A number at the end of a line is read back as an integer, as far as integers go
(`readScalar_number`). The reader tries dates and times first, which start with digits as well; but
in those a dash or a colon follows the first digits, and here there is none.
-/

namespace ReactorDeploy.Toml

open Net (digitsValue)

variable {cs ds rest : List Char}

/-! ## Runs of digits -/

/-- Digits in front of a line end are read whole. -/
theorem readDigits_run (hds : ∀ c ∈ ds, c.isDigit) (hne : ds ≠ []) (rest : List Char) :
    readDigits Char.isDigit (ds ++ '\n' :: rest) = some (ds, '\n' :: rest) := by
  induction ds with
  | nil => exact absurd rfl hne
  | cons c ds ih =>
    have hc : c.isDigit := hds c (.head _)
    cases ds with
    | nil =>
      rw [List.singleton_append, readDigits, if_pos hc]
      · rfl
      · exact fun _ h => absurd (List.cons.inj h).1 (by decide)
    | cons d ds =>
      have hd : d.isDigit := hds d (.tail _ (.head _))
      have hread := ih (fun e he => hds e (.tail _ he)) (List.cons_ne_nil d ds)
      rw [List.cons_append] at hread
      rw [List.cons_append, List.cons_append, readDigits, if_pos hc]
      · dsimp only
        rw [if_pos hd, hread]
        rfl
      · intro tail h
        rw [(List.cons.inj h).1] at hd
        cases hd

/-- The digits of a number are read as an integer, no zero standing before them. -/
theorem readDecimal_toDigits (n : Nat) (rest : List Char) :
    readDecimal (Nat.toDigits 10 n ++ '\n' :: rest) = some (Nat.toDigits 10 n, '\n' :: rest) := by
  cases n with
  | zero => rfl
  | succ n =>
    have hbase : 1 < 10 := by decide
    have hhead := Net.head?_toDigits_ne_zero hbase (Nat.succ_pos n)
    have hdigits : ∀ c ∈ Nat.toDigits 10 (n + 1), c.isDigit := fun _ =>
      Net.isDigit_of_mem_toDigits_ten
    rw [readDecimal]
    · exact readDigits_run hdigits Nat.toDigits_ne_nil rest
    · intro tail h
      cases hcs : Nat.toDigits 10 (n + 1) with
      | nil => exact Nat.toDigits_ne_nil hcs
      | cons c cs =>
        rw [hcs] at h hhead
        exact hhead (congrArg some (List.cons.inj h).1)

/-! ## What is no date -/

/-- Whatever is taken off digits in front of a line end, digits and the line end remain. -/
theorem digits_of_readFixed {n value : Nat} {left : List Char} (hds : ∀ c ∈ ds, c.isDigit)
    (h : readFixed n (ds ++ '\n' :: rest) = some (value, left)) :
    ∃ es, (∀ c ∈ es, c.isDigit) ∧ left = es ++ '\n' :: rest := by
  unfold readFixed at h
  dsimp only at h
  split at h
  · next hdigits =>
    cases h
    have hall := (Bool.and_eq_true_iff.1 hdigits).2
    have hn : n ≤ ds.length := by
      by_contra hlong
      obtain ⟨k, hk⟩ : ∃ k, n - ds.length = k + 1 := ⟨n - ds.length - 1, by omega⟩
      rw [List.take_append, hk, List.take_succ_cons] at hall
      have hfeed := List.all_eq_true.1 hall '\n' (List.mem_append_right _ (.head _))
      cases hfeed
    refine ⟨ds.drop n, fun c hc => hds c (List.mem_of_mem_drop hc), ?_⟩
    rw [List.drop_append_of_le_length hn]
  · cases h

/-- The same with a bounded number of digits. -/
theorem digits_of_readBounded {n low high value : Nat} {left : List Char}
    (hds : ∀ c ∈ ds, c.isDigit)
    (h : readBounded n low high (ds ++ '\n' :: rest) = some (value, left)) :
    ∃ es, (∀ c ∈ es, c.isDigit) ∧ left = es ++ '\n' :: rest := by
  unfold readBounded at h
  split at h
  · next hread =>
    split at h
    · cases h
      exact digits_of_readFixed hds hread
    · cases h
  · cases h

/-- Nothing but a digit or the line end can be taken off digits in front of a line end. -/
theorem dropChar?_eq_none {c : Char} (hds : ∀ c ∈ ds, c.isDigit) (hc : c.isDigit = false)
    (hfeed : c ≠ '\n') : dropChar? c (ds ++ '\n' :: rest) = none := by
  cases ds with
  | nil => exact if_neg hfeed
  | cons d ds =>
    refine if_neg ?_
    rintro rfl
    rw [hds c (.head _)] at hc
    cases hc

/-- Digits in front of a line end are no date. -/
theorem readDateTime_eq_none (hds : ∀ c ∈ ds, c.isDigit) (rest : List Char) :
    readDateTime (ds ++ '\n' :: rest) = none := by
  have hdate : skipDate? (ds ++ '\n' :: rest) = none := by
    unfold skipDate?
    cases hyear : readFixed 4 (ds ++ '\n' :: rest) with
    | none => rfl
    | some year =>
      obtain ⟨es, hes, hleft⟩ := digits_of_readFixed hds hyear
      have hdash : dropChar? '-' year.2 = none := by
        rw [hleft]
        exact dropChar?_eq_none hes rfl (by decide)
      simp only [Option.bind_eq_bind, Option.bind_some, hdash, Option.bind_none]
  have htime : skipTime? (ds ++ '\n' :: rest) = none := by
    unfold skipTime?
    cases hhour : readBounded 2 0 23 (ds ++ '\n' :: rest) with
    | none => rfl
    | some hour =>
      obtain ⟨es, hes, hleft⟩ := digits_of_readBounded hds hhour
      have hcolon : dropChar? ':' hour.2 = none := by
        rw [hleft]
        exact dropChar?_eq_none hes rfl (by decide)
      simp only [Option.bind_eq_bind, Option.bind_some, hcolon, Option.bind_none]
  rw [readDateTime, hdate, htime]
  rfl

/-! ## Scalars -/

/-- A digit is no letter. -/
theorem ne_of_isDigit {c d : Char} (hc : c.isDigit) (hd : d.isDigit = false) : c ≠ d := by
  rintro rfl
  rw [hc] at hd
  cases hd

/-- A digit is no sign. -/
theorem readSign_of_isDigit {d : Char} (hd : d.isDigit) (tail : List Char) :
    readSign (d :: tail) = (false, d :: tail) := by
  rw [readSign]
  · exact fun _ h => absurd (List.cons.inj h).1 (ne_of_isDigit hd rfl)
  · exact fun _ h => absurd (List.cons.inj h).1 (ne_of_isDigit hd rfl)

/-- What starts with a digit, and has a digit or a line end behind it, is a decimal number. -/
theorem readNumber_of_isDigit {d : Char} {tail : List Char} (hd : d.isDigit)
    (htail : ∀ c ∈ tail.head?, c.isDigit ∨ c = '\n') :
    readNumber (d :: tail) = readDecimalNumber (d :: tail) := by
  have hbase : ∀ c left, c.isDigit = false → c ≠ '\n' → tail ≠ c :: left := by
    rintro c left hc hfeed rfl
    rcases htail c rfl with hdigit | rfl
    · rw [hc] at hdigit
      cases hdigit
    · exact hfeed rfl
  have hinf : dropWord? "inf".toList (d :: tail) = none := if_neg (ne_of_isDigit hd rfl).symm
  have hnan : dropWord? "nan".toList (d :: tail) = none := if_neg (ne_of_isDigit hd rfl).symm
  unfold readNumber
  rw [readSign_of_isDigit hd]
  dsimp only
  rw [hinf, hnan]
  split
  · next h => cases h
  split
  · next h => exact absurd (List.cons.inj h).2 (hbase 'x' _ rfl (by decide))
  · next h => exact absurd (List.cons.inj h).2 (hbase 'o' _ rfl (by decide))
  · next h => exact absurd (List.cons.inj h).2 (hbase 'b' _ rfl (by decide))
  · rfl

/-- A decimal number at the end of a line is an integer. -/
theorem readDecimalNumber_toDigits {n : Nat} (hn : n < 0x8000000000000000) (rest : List Char) :
    readDecimalNumber (Nat.toDigits 10 n ++ '\n' :: rest) = some (.integer n, '\n' :: rest) := by
  have hsign : readSign (Nat.toDigits 10 n ++ '\n' :: rest) =
      (false, Nat.toDigits 10 n ++ '\n' :: rest) := by
    cases hcs : Nat.toDigits 10 n with
    | nil => exact absurd hcs Nat.toDigits_ne_nil
    | cons d ds =>
      have hd : d.isDigit := Net.isDigit_of_mem_toDigits_ten (n := n) (hcs ▸ .head ds)
      exact readSign_of_isDigit hd _
  have hfits : integer64? n = some (.integer n) := if_pos (by omega)
  unfold readDecimalNumber
  rw [hsign, Option.bind_eq_bind]
  dsimp only
  rw [readDecimal_toDigits, Option.bind_some]
  dsimp only
  rw [Net.digitsValue_toDigits (by decide) (by decide)]
  simp [hfits]

/-- A number at the end of a line is read as it is, if it fits 64 bits with a sign. -/
theorem readScalar_number {n : Nat} (hn : n < 0x8000000000000000) (rest : List Char) :
    readScalar (Nat.toDigits 10 n ++ '\n' :: rest) = some (.integer n, '\n' :: rest) := by
  have hdigits : ∀ c ∈ Nat.toDigits 10 n, c.isDigit := fun _ => Net.isDigit_of_mem_toDigits_ten
  have hdate := readDateTime_eq_none hdigits rest
  have hdecimal := readDecimalNumber_toDigits hn rest
  cases hcs : Nat.toDigits 10 n with
  | nil => exact absurd hcs Nat.toDigits_ne_nil
  | cons d ds =>
    rw [hcs] at hdigits hdate hdecimal
    have hd : d.isDigit := hdigits d (.head _)
    have htail : ∀ c ∈ (ds ++ '\n' :: rest).head?, c.isDigit ∨ c = '\n' := by
      cases ds with
      | nil => exact fun c hc => .inr (Option.some.inj hc).symm
      | cons e es =>
        rintro c hc
        obtain rfl := Option.some.inj hc
        exact .inl (hdigits e (.tail _ (.head _)))
    rw [List.cons_append] at hdate hdecimal ⊢
    rw [readScalar, hdate, readNumber_of_isDigit hd htail, hdecimal]
    · rfl
    · exact fun _ h => absurd (List.cons.inj h).1 (ne_of_isDigit hd rfl)
    · exact fun _ h => absurd (List.cons.inj h).1 (ne_of_isDigit hd rfl)

/-- A truth value is read as it is. -/
theorem readScalar_truth (b : Bool) (rest : List Char) :
    readScalar ((if b then "true" else "false").toList ++ rest) = some (.boolean b, rest) := by
  cases b <;> rfl

end ReactorDeploy.Toml
