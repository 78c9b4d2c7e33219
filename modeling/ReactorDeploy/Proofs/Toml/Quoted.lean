import ReactorDeploy.Proofs.Text.Scan
import ReactorDeploy.Toml.Quoted

/-!
# Quoted text reads back

Whatever the characters of a text, its plainest form is read back as that text (`read_encode`),
behind any text that does not start with a quote itself: a quote there could be taken for one more
of those that close the form.

The two forms between triple quotes keep quotes as they are, up to two in a row. The reader finds
out only at the third whether a run of quotes belongs to the text, so the inductions over these
forms carry the run of quotes that has just gone by.
-/

namespace ReactorDeploy.Toml.Quoted

open Text (Stops stops_cons)

variable {cs rest : List Char} {c : Char}

/-! ## Characters -/

/-- What is no control character and no line feed may stand as it is. -/
theorem isPlain_of_not_isControl (hcontrol : isControl c = false) (hc : c ≠ '\n') :
    isPlain c := by
  by_cases htab : c = '\t'
  · rw [htab]
    rfl
  simp only [isControl, Bool.or_eq_false_iff, Bool.and_eq_false_iff, decide_eq_false_iff_not,
    bne_eq_false_iff_eq, beq_eq_false_iff_ne, hc, htab, or_false] at hcontrol
  obtain ⟨hlow, hdelete⟩ := hcontrol
  simp only [isPlain, Bool.or_eq_true, Bool.and_eq_true, beq_iff_eq, decide_eq_true_eq]
  omega

/-- The four-digit escape of an ASCII character gives its code point. -/
theorem codePoint?_upperDigit (h : c.toNat < 128) :
    codePoint? ['0', '0', upperDigit (c.toNat / 16), upperDigit (c.toNat % 16)] = some c := by
  have hall : ∀ n < 128, codePoint? ['0', '0', upperDigit (n / 16), upperDigit (n % 16)] =
      some (Char.ofNat n) := by
    decide +kernel
  rw [hall _ h, Char.ofNat_toNat]

/-- How a character stands in a basic form: behind a backslash, as a code point, or as it is. -/
inductive Escaped (multi : Bool) (c : Char) : List Char → Prop
  | letter {l : Char} : letterEscape? l = some c → Escaped multi c ['\\', l]
  | code {a b : Char} : codePoint? ['0', '0', a, b] = some c →
      Escaped multi c ['\\', 'u', '0', '0', a, b]
  | lineFeed : multi → c = '\n' → Escaped multi c ['\n']
  | plain : isPlainBasic c → Escaped multi c [c]

/-- Every character but the quotation mark is written in one of these ways. -/
theorem escaped_escaped (multi : Bool) (hc : c ≠ '"') : Escaped multi c (escaped multi c) := by
  unfold escaped
  split
  · next h =>
    subst h
    exact .letter rfl
  split
  · next h =>
    subst h
    exact .letter rfl
  split
  · next h =>
    subst h
    exact .letter rfl
  split
  · next h =>
    subst h
    exact .letter rfl
  split
  · next h =>
    subst h
    exact .letter rfl
  next hbackslash =>
  split
  · next h =>
    subst h
    cases multi with
    | true => exact .lineFeed rfl rfl
    | false => exact .letter rfl
  next hfeed =>
  split
  · next hcontrol =>
    refine .code (codePoint?_upperDigit ?_)
    simp only [isControl, Bool.or_eq_true, Bool.and_eq_true, decide_eq_true_eq, beq_iff_eq]
      at hcontrol
    omega
  · next hcontrol =>
    refine .plain ?_
    have hplain := isPlain_of_not_isControl (Bool.eq_false_iff.2 hcontrol) hfeed
    simp [isPlainBasic, hplain, hc, hbackslash]

/-- No way of writing a character starts with a quotation mark. -/
theorem Escaped.head_ne {multi : Bool} {w : List Char} (h : Escaped multi c w) :
    ∃ d ds, w = d :: ds ∧ d ≠ '"' := by
  cases h with
  | letter | code => exact ⟨_, _, rfl, by decide⟩
  | lineFeed => exact ⟨_, _, rfl, by decide⟩
  | plain hplain =>
    refine ⟨_, _, rfl, ?_⟩
    rintro rfl
    cases hplain

/-! ## One line -/

/-- A written character is read back. -/
theorem readBasic_of_escaped {w : List Char} (h : Escaped false c w) (rest : List Char) :
    readBasic (w ++ rest) = prepend c (readBasic rest) := by
  cases h with
  | letter hletter =>
    unfold letterEscape? at hletter
    split at hletter <;> cases hletter <;> rfl
  | code hcode =>
    rw [List.cons_append, List.cons_append, List.cons_append, List.cons_append, List.cons_append,
      List.cons_append, readBasic, hcode]
    rfl
  | lineFeed hmulti => cases hmulti
  | plain hplain =>
    have hquote : c ≠ '"' := by
      rintro rfl
      cases hplain
    have hbackslash : c ≠ '\\' := by
      rintro rfl
      cases hplain
    rw [List.cons_append, List.nil_append, readBasic, if_pos hplain]
    · exact fun h => hquote h
    · exact fun _ _ _ _ _ h => absurd h hbackslash
    · exact fun _ _ _ _ _ _ _ _ _ h => absurd h hbackslash
    · exact fun _ _ h => absurd h hbackslash

/-- The basic form on one line holds every text. -/
theorem readBasic_encodeBasic (cs rest : List Char) :
    readBasic (encodeBasic false 0 cs ++ '"' :: rest) = some (cs, rest) := by
  induction cs with
  | nil => rfl
  | cons c cs ih =>
    rw [encodeBasic]
    split
    · next h =>
      have hescape : readBasic ('\\' :: '"' :: (encodeBasic false 0 cs ++ '"' :: rest)) =
          prepend '"' (readBasic (encodeBasic false 0 cs ++ '"' :: rest)) := rfl
      rw [if_neg (by simp), List.cons_append, List.cons_append, hescape, ih, h]
      rfl
    · next h =>
      rw [List.append_assoc, readBasic_of_escaped (escaped_escaped false h), ih]
      rfl

/-- The literal form on one line holds what has no quote, control character or line feed in it. -/
theorem readLiteral_append (h : ∀ c ∈ cs, c ≠ '\'' ∧ isPlain c) (rest : List Char) :
    readLiteral (cs ++ '\'' :: rest) = some (cs, rest) := by
  induction cs with
  | nil => rfl
  | cons c cs ih =>
    obtain ⟨hquote, hplain⟩ := h c (.head _)
    rw [List.cons_append, readLiteral, if_pos hplain, ih fun d hd => h d (.tail _ hd)]
    · rfl
    · exact fun h => hquote h

/-! ## Between triple quotes -/

/-- Quotes behind a closing triple quote, two at most, belong to the text. -/
theorem closeMulti_replicate {q : Char} {run : Nat} (hrun : run ≤ 2)
    (hrest : Stops (· == q) rest) :
    closeMulti q (List.replicate run q ++ rest) = some (List.replicate run q, rest) := by
  have hq : ∀ d ∈ List.replicate run q, (d == q) = true := fun d hd =>
    beq_iff_eq.2 (List.eq_of_mem_replicate hd)
  unfold closeMulti
  rw [Text.takeWhile_run hq hrest, Text.dropWhile_run hq hrest]
  dsimp only
  rw [List.length_replicate, if_pos hrun]

/-- Of a run of quotes and three more, the three come first. -/
theorem replicate_append_triple (run : Nat) (q : Char) (rest : List Char) :
    List.replicate run q ++ q :: q :: q :: rest =
      q :: q :: q :: (List.replicate run q ++ rest) := by
  induction run with
  | zero => rfl
  | succ run ih => rw [List.replicate_succ, List.cons_append, ih, List.cons_append]

/-- A written character is read back. -/
theorem readMultiBasic_of_escaped {w : List Char} (h : Escaped true c w) (rest : List Char) :
    readMultiBasic false (w ++ rest) = prepend c (readMultiBasic false rest) := by
  cases h with
  | letter hletter =>
    unfold letterEscape? at hletter
    split at hletter <;> cases hletter <;> rfl
  | code hcode =>
    rw [List.cons_append, List.cons_append, List.cons_append, List.cons_append, List.cons_append,
      List.cons_append, readMultiBasic, hcode]
    rfl
  | lineFeed _ hc =>
    rw [hc]
    rfl
  | plain hplain =>
    have hne : ∀ d, isPlainBasic d = false → c ≠ d := fun d hd h => by
      rw [← h, hplain] at hd
      cases hd
    rw [List.cons_append, List.nil_append, readMultiBasic]
    · simp [hplain]
    · exact fun _ h => absurd h (hne _ rfl)
    · exact fun _ h => absurd h (hne _ rfl)
    · exact fun h => absurd h (hne _ rfl)
    · exact fun _ _ _ _ _ h => absurd h (hne _ rfl)
    · exact fun _ _ _ _ _ _ _ _ _ h => absurd h (hne _ rfl)
    · exact fun _ _ h => absurd h (hne _ rfl)

/-- One quote or two in front of anything else are read as they are. -/
theorem readMultiBasic_replicate {run : Nat} (hrun : run ≤ 2) (hrest : Stops (· == '"') rest)
    {read : List Char × List Char} (h : readMultiBasic false rest = some read) :
    readMultiBasic false (List.replicate run '"' ++ rest) =
      some (List.replicate run '"' ++ read.1, read.2) := by
  have hone : ∀ tail, rest ≠ '"' :: tail := by
    rintro tail rfl
    cases stops_cons.1 hrest
  match run, hrun with
  | 0, _ => exact h
  | 1, _ =>
    show readMultiBasic false ('"' :: rest) = _
    rw [readMultiBasic, h]
    · rfl
    · exact fun _ h => hone _ h
  | 2, _ =>
    show readMultiBasic false ('"' :: '"' :: rest) = _
    rw [readMultiBasic, readMultiBasic, h]
    · rfl
    · exact fun _ h => hone _ h
    · exact fun _ h => hone _ (List.cons.inj h).2

/-- The basic form between triple quotes holds every text. `run` quotes have just gone by. -/
theorem readMultiBasic_encodeBasic {run : Nat} (hrun : run ≤ 2) (cs : List Char)
    (hrest : Stops (· == '"') rest) :
    readMultiBasic false
        (List.replicate run '"' ++ (encodeBasic true run cs ++ '"' :: '"' :: '"' :: rest)) =
      some (List.replicate run '"' ++ cs, rest) := by
  induction cs generalizing run with
  | nil =>
    rw [encodeBasic, List.nil_append, replicate_append_triple, readMultiBasic,
      closeMulti_replicate hrun hrest, List.append_nil]
  | cons c cs ih =>
    have hrestart : readMultiBasic false
        (encodeBasic true 0 cs ++ '"' :: '"' :: '"' :: rest) = some (cs, rest) :=
      ih (Nat.zero_le 2)
    rw [encodeBasic]
    split
    · next h =>
      rw [h]
      -- A third quote in a row is escaped, so that the run never gets as long as the delimiter.
      split
      · next hmore =>
        have hmore : run < 2 := by simpa using hmore
        have hstep := ih hmore
        rw [List.replicate_succ', List.append_assoc, List.append_assoc] at hstep
        exact hstep
      · have hescape : readMultiBasic false
            ('\\' :: '"' :: (encodeBasic true 0 cs ++ '"' :: '"' :: '"' :: rest)) =
            some ('"' :: cs, rest) := by
          show prepend '"' (readMultiBasic false _) = _
          rw [hrestart]
          rfl
        exact readMultiBasic_replicate hrun (stops_cons.2 rfl) hescape
    · next h =>
      have hescaped := escaped_escaped true h
      obtain ⟨d, ds, hd, hquote⟩ := hescaped.head_ne
      have hread : readMultiBasic false
          (escaped true c ++ (encodeBasic true 0 cs ++ '"' :: '"' :: '"' :: rest)) =
          some (c :: cs, rest) := by
        rw [readMultiBasic_of_escaped hescaped, hrestart]
        rfl
      rw [List.append_assoc]
      refine readMultiBasic_replicate hrun ?_ hread
      rw [hd]
      exact stops_cons.2 (beq_eq_false_iff_ne.2 hquote)

/-- One quote or two in front of anything else are read as they are. -/
theorem readMultiLiteral_replicate {run : Nat} (hrun : run ≤ 2) (hrest : Stops (· == '\'') rest)
    {read : List Char × List Char} (h : readMultiLiteral rest = some read) :
    readMultiLiteral (List.replicate run '\'' ++ rest) =
      some (List.replicate run '\'' ++ read.1, read.2) := by
  have hone : ∀ tail, rest ≠ '\'' :: tail := by
    rintro tail rfl
    cases stops_cons.1 hrest
  match run, hrun with
  | 0, _ => exact h
  | 1, _ =>
    show readMultiLiteral ('\'' :: rest) = _
    rw [readMultiLiteral, h]
    · rfl
    · exact fun _ h => absurd h (by decide)
    · exact fun _ _ h => hone _ h
  | 2, _ =>
    show readMultiLiteral ('\'' :: '\'' :: rest) = _
    rw [readMultiLiteral, readMultiLiteral, h]
    · rfl
    · exact fun _ h => absurd h (by decide)
    · exact fun _ _ h => hone _ h
    · exact fun _ h => absurd h (by decide)
    · exact fun _ _ h => hone _ (List.cons.inj h).2

/-- The literal form between triple quotes holds what has no control character and no three quotes
in a row in it. `run` quotes have just gone by. -/
theorem readMultiLiteral_append {run : Nat} (hcontrol : ∀ c ∈ cs, isControl c = false)
    (hrun : longestRun '\'' run cs ≤ 2) (hrest : Stops (· == '\'') rest) :
    readMultiLiteral (List.replicate run '\'' ++ (cs ++ '\'' :: '\'' :: '\'' :: rest)) =
      some (List.replicate run '\'' ++ cs, rest) := by
  induction cs generalizing run with
  | nil =>
    rw [longestRun] at hrun
    rw [List.nil_append, replicate_append_triple, readMultiLiteral,
      closeMulti_replicate hrun hrest, List.append_nil]
  | cons c cs ih =>
    have hcs : ∀ d ∈ cs, isControl d = false := fun d hd => hcontrol d (.tail _ hd)
    rw [longestRun] at hrun
    split at hrun
    · next h =>
      have hstep := ih hcs hrun
      rw [List.replicate_succ', List.append_assoc, List.append_assoc] at hstep
      rw [h]
      exact hstep
    · next h =>
      obtain ⟨hrun, hlater⟩ := Nat.max_le.1 hrun
      have hrestart : readMultiLiteral (cs ++ '\'' :: '\'' :: '\'' :: rest) = some (cs, rest) :=
        ih hcs hlater
      have hplain : (c == '\n' || isPlain c) = true := by
        by_cases hfeed : c = '\n'
        · rw [hfeed]
          rfl
        · rw [isPlain_of_not_isControl (hcontrol c (.head _)) hfeed, Bool.or_true]
      have hread : readMultiLiteral (c :: (cs ++ '\'' :: '\'' :: '\'' :: rest)) =
          some (c :: cs, rest) := by
        rw [readMultiLiteral, if_pos hplain, hrestart]
        · rfl
        · rintro tail rfl
          exact absurd (hcontrol _ (.head _)) (by decide)
        · exact fun _ hquote => absurd hquote h
      exact readMultiLiteral_replicate hrun (stops_cons.2 (beq_eq_false_iff_ne.2 h)) hread

/-! ## The plainest form -/


/-- What follows an opening triple quote reads on behind the line feed put there, if there is one,
and as it is otherwise. -/
theorem dropNewline_leadingNewline {w : List Char}
    (h : '\n' ∉ cs → Stops (fun c => !isPlain c) w) : dropNewline (leadingNewline cs ++ w) = w := by
  unfold leadingNewline
  split
  · rfl
  · next hcs =>
    have hw := h fun hmem => hcs (List.contains_iff_mem.2 hmem)
    rw [List.nil_append, dropNewline]
    · rintro tail rfl
      cases stops_cons.1 hw
    · rintro tail rfl
      cases stops_cons.1 hw

/-- The body of a basic form starts with a plain character, if the text has no line feeds. -/
theorem stops_encodeBasic (hcs : '\n' ∉ cs) (tail : List Char) :
    Stops (fun c => !isPlain c) (encodeBasic true 0 cs ++ '"' :: tail) := by
  cases cs with
  | nil => exact stops_cons.2 rfl
  | cons c cs =>
    rw [encodeBasic]
    split
    · split <;> exact stops_cons.2 rfl
    · next h =>
      have hescaped := escaped_escaped true h
      revert hescaped
      generalize escaped true c = w
      rintro (_ | _ | ⟨_, rfl⟩ | hplain)
      · exact stops_cons.2 rfl
      · exact stops_cons.2 rfl
      · exact absurd (.head _) hcs
      · simp only [isPlainBasic, Bool.and_eq_true] at hplain
        simp [hplain]

/-- The body of a basic form on one line does not start with a quotation mark. -/
theorem head_encodeBasic_ne (c : Char) (cs : List Char) :
    ∃ d ds, encodeBasic false 0 (c :: cs) = d :: ds ∧ d ≠ '"' := by
  rw [encodeBasic]
  split
  · exact ⟨_, _, if_neg (by simp), by decide⟩
  · next hc =>
    obtain ⟨d, ds, hd, hquote⟩ := (escaped_escaped false hc).head_ne
    rw [hd]
    exact ⟨d, _, rfl, hquote⟩

/-- A run is no shorter than what of it has gone by. -/
theorem le_longestRun (q : Char) (run : Nat) (cs : List Char) : run ≤ longestRun q run cs := by
  induction cs generalizing run with
  | nil => exact Nat.le_refl run
  | cons c cs ih =>
    rw [longestRun]
    split
    · exact Nat.le_trans (Nat.le_succ run) (ih (run + 1))
    · exact Nat.le_max_left run _

/-- A text without a run of `q` is one without `q`. -/
theorem notMem_of_longestRun {q : Char} (h : longestRun q 0 cs = 0) : q ∉ cs := by
  induction cs with
  | nil => exact List.not_mem_nil
  | cons c cs ih =>
    rw [longestRun] at h
    split at h
    · exact absurd (le_longestRun q 1 cs) (by rw [h]; decide)
    · next hc =>
      rw [Nat.max_eq_zero_iff] at h
      exact List.not_mem_cons_of_ne_of_not_mem (Ne.symm hc) (ih h.2)

/-- What the literal form on one line is picked for. -/
theorem of_formFor_literal (h : formFor cs = .literal) : ∀ c ∈ cs, c ≠ '\'' ∧ isPlain c := by
  unfold formFor at h
  dsimp only at h
  split at h
  · cases h
  split at h
  · next hliteral =>
    simp only [Bool.and_eq_true, Bool.not_eq_true', List.any_eq_false, decide_eq_true_eq,
      List.contains_eq_mem, decide_eq_false_iff_not, Bool.not_eq_true] at hliteral
    obtain ⟨⟨hcontrol, hfeed⟩, hsingles⟩ := hliteral
    intro c hc
    refine ⟨?_, isPlain_of_not_isControl (hcontrol c hc) ?_⟩
    · rintro rfl
      exact notMem_of_longestRun hsingles hc
    · rintro rfl
      exact hfeed hc
  split at h
  · cases h
  split at h
  · cases h
  split at h <;> cases h

/-- What the literal form between triple quotes is picked for. -/
theorem of_formFor_multiLiteral (h : formFor cs = .multiLiteral) :
    (∀ c ∈ cs, isControl c = false) ∧ longestRun '\'' 0 cs ≤ 2 := by
  unfold formFor at h
  dsimp only at h
  split at h
  · cases h
  split at h
  · cases h
  split at h
  · cases h
  split at h
  · next hliteral =>
    simp only [Bool.and_eq_true, Bool.not_eq_true', List.any_eq_false, decide_eq_true_eq,
      Bool.not_eq_true] at hliteral
    exact hliteral
  split at h <;> cases h

/-- **A text in its plainest form is read back**, whatever follows, unless that starts with a
quote. -/
theorem read_encode (cs : List Char) (hrest : Stops (fun c => c == '"' || c == '\'') rest) :
    read (encode (formFor cs) cs ++ rest) = some (cs, rest) := by
  have hdouble : Stops (· == '"') rest := fun c hc => (Bool.or_eq_false_iff.1 (hrest c hc)).1
  have hsingle : Stops (· == '\'') rest := fun c hc => (Bool.or_eq_false_iff.1 (hrest c hc)).2
  cases hform : formFor cs with
  | basic =>
    simp only [encode, List.append_assoc, List.cons_append, List.nil_append]
    rw [read.eq_2, readBasic_encodeBasic]
    intro tail h
    cases cs with
    | nil =>
      rw [encodeBasic, List.nil_append, List.cons.injEq] at h
      rw [h.2] at hdouble
      cases stops_cons.1 hdouble
    | cons c cs =>
      obtain ⟨d, ds, hd, hquote⟩ := head_encodeBasic_ne c cs
      rw [hd, List.cons_append] at h
      exact hquote (List.cons.inj h).1
  | literal =>
    have hcs := of_formFor_literal hform
    simp only [encode, List.append_assoc, List.cons_append, List.nil_append]
    rw [read.eq_4, readLiteral_append hcs]
    intro tail h
    cases cs with
    | nil =>
      rw [List.nil_append, List.cons.injEq] at h
      rw [h.2] at hsingle
      cases stops_cons.1 hsingle
    | cons c cs => exact (hcs c (.head _)).1 (List.cons.inj h).1
  | multiBasic =>
    simp only [encode, List.append_assoc, List.cons_append, List.nil_append]
    rw [read, dropNewline_leadingNewline fun h => stops_encodeBasic h _]
    exact readMultiBasic_encodeBasic (Nat.zero_le 2) cs hdouble
  | multiLiteral =>
    obtain ⟨hcontrol, hrun⟩ := of_formFor_multiLiteral hform
    simp only [encode, List.append_assoc, List.cons_append, List.nil_append]
    rw [read, dropNewline_leadingNewline fun h => ?_]
    · have hread := readMultiLiteral_append hcontrol hrun hsingle
      exact hread
    · cases cs with
      | nil => exact stops_cons.2 rfl
      | cons c cs =>
        have hfeed : c ≠ '\n' := fun hc => h (hc ▸ .head _)
        simp [isPlain_of_not_isControl (hcontrol c (.head _)) hfeed]

end ReactorDeploy.Toml.Quoted
