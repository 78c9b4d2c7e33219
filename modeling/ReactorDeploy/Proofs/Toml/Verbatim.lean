import ReactorDeploy.Proofs.Toml.Quoted

/-!
# Text between quotes as it stands

A text that is put between quotation marks without any escapes, at the end of a line, is read back
as it is just if all of its characters may stand as they are (`read_verbatim_iff`). For an escape
takes more characters than it gives, and none of those behind the text can make up for that: the
line ends there, which the basic form on one line does not outlast, and a form between triple quotes
is not closed behind it, as long as no three quotes in a row follow.
-/

namespace ReactorDeploy.Toml.Quoted

variable {cs tail rest read : List Char} {c : Char}

/-- What was read with a character in front of it starts with that character. -/
theorem of_prepend {r : Option (List Char × List Char)} (h : prepend c r = some (read, rest)) :
    ∃ more, read = c :: more ∧ r = some (more, rest) := by
  obtain ⟨⟨more, rest'⟩, hread, heq⟩ := Option.map_eq_some_iff.1 h
  cases heq
  exact ⟨more, rfl, hread⟩

/-! ## One line -/

/-- What stands behind the backslash of an escape. A quotation mark can only be all of it. -/
structure EscapeBody (ls : List Char) : Prop where
  ne_nil : ls ≠ []
  quote : '"' ∈ ls → ls = ['"']

/-- What a basic form on one line is read as, whatever its escapes stand for. -/
inductive BasicForm (rest : List Char) : List Char → List Char → Prop
  | close : BasicForm rest ('"' :: rest) []
  | plain {c : Char} {cs read : List Char} : isPlainBasic c → BasicForm rest cs read →
      BasicForm rest (c :: cs) (c :: read)
  | escape {ls : List Char} {c : Char} {cs read : List Char} : EscapeBody ls →
      BasicForm rest cs read → BasicForm rest ('\\' :: (ls ++ cs)) (c :: read)

/-- Digits of a code point are no quotation marks. -/
theorem escapeBody_of_codePoint? {u : Char} (hu : u ≠ '"') {ds : List Char}
    (h : codePoint? ds = some c) : EscapeBody (u :: ds) := by
  refine ⟨List.cons_ne_nil u ds, fun hmem => ?_⟩
  have hquote : '"' ∈ ds := (List.mem_cons.1 hmem).resolve_left hu.symm
  unfold codePoint? at h
  dsimp only at h
  split at h
  · next hall =>
    have hdigits := List.all_eq_true.1 (Bool.and_eq_true_iff.1 hall).1 _ hquote
    cases hdigits
  · cases h

theorem escapeBody_singleton (l : Char) : EscapeBody [l] :=
  ⟨List.cons_ne_nil l [], fun hmem => by rw [List.mem_singleton.1 hmem]⟩

/-- The reader keeps to the form. -/
theorem basicForm_of_readBasic (h : readBasic cs = some (read, rest)) :
    BasicForm rest cs read := by
  fun_induction readBasic cs generalizing read with
  | case1 rest' =>
    cases h
    exact .close
  | case2 a b c d later ih =>
    obtain ⟨e, hcode, h⟩ := Option.bind_eq_some_iff.1 h
    obtain ⟨more, rfl, hread⟩ := of_prepend h
    exact .escape (escapeBody_of_codePoint? (by decide) hcode) (ih hread)
  | case3 a b c d e f g h' later ih =>
    obtain ⟨e, hcode, h⟩ := Option.bind_eq_some_iff.1 h
    obtain ⟨more, rfl, hread⟩ := of_prepend h
    exact .escape (escapeBody_of_codePoint? (by decide) hcode) (ih hread)
  | case4 l later _ _ ih =>
    obtain ⟨e, hletter, h⟩ := Option.bind_eq_some_iff.1 h
    obtain ⟨more, rfl, hread⟩ := of_prepend h
    exact .escape (escapeBody_singleton l) (ih hread)
  | case5 c later _ _ _ _ hplain ih =>
    obtain ⟨more, rfl, hread⟩ := of_prepend h
    exact .plain hplain (ih hread)
  | case6 => cases h
  | case7 => cases h

/-- No basic form goes on behind the end of a line. -/
theorem not_basicForm_lineFeed : ¬ BasicForm rest ('\n' :: tail) read := by
  intro h
  cases h with
  | plain hplain => cases hplain

/-- An escape ends within the text, if the line does right behind it. -/
theorem exists_of_escape {ls later : List Char} (hls : EscapeBody ls)
    (hlater : BasicForm rest later read) (h : ls ++ later = cs ++ '"' :: '\n' :: tail) :
    ∃ more, cs = ls ++ more ∧ later = more ++ '"' :: '\n' :: tail := by
  rcases List.append_eq_append_iff.1 h with ⟨more, hcs, hmore⟩ | ⟨beyond, hbeyond, htail⟩
  · exact ⟨more, hcs, hmore⟩
  · cases beyond with
    | nil => exact ⟨[], by simpa using hbeyond.symm, by simpa using htail.symm⟩
    | cons q beyond =>
      -- The escape would have the closing quotation mark in it, and then be at the line's end.
      obtain ⟨rfl, hlast⟩ := List.cons.inj htail
      have hquote := hls.quote (by rw [hbeyond]; simp)
      rw [hquote] at hbeyond
      have hempty : beyond = [] := by
        cases cs <;> simp_all
      have hlast : '\n' :: tail = later := by
        rw [hlast, hempty]
        rfl
      rw [← hlast] at hlater
      exact absurd hlater not_basicForm_lineFeed

/-- A basic form that is closed within a line is not read as more characters than it has. -/
theorem BasicForm.length_le {text : List Char} (h : BasicForm rest text read)
    (htext : text = cs ++ '"' :: '\n' :: tail) : read.length ≤ cs.length := by
  induction h generalizing cs with
  | close => exact Nat.zero_le _
  | plain hplain _ ih =>
    cases cs with
    | nil =>
      obtain ⟨rfl, -⟩ := List.cons.inj htext
      cases hplain
    | cons d cs => exact Nat.succ_le_succ (ih (List.cons.inj htext).2)
  | escape hls hlater ih =>
    cases cs with
    | nil => cases (List.cons.inj htext).1
    | cons d cs =>
      obtain ⟨more, rfl, hmore⟩ := exists_of_escape hls hlater (List.cons.inj htext).2
      have hle := ih hmore
      rw [List.length_cons, List.length_cons, List.length_append]
      omega

/-- A text that a basic form is read as, as it stands there, has no escape and no quotation mark in
it. -/
theorem BasicForm.all_isPlainBasic {text : List Char} (h : BasicForm rest text read)
    (htext : text = read ++ '"' :: '\n' :: tail) : ∀ c ∈ read, isPlainBasic c := by
  induction h with
  | close => exact nofun
  | plain hplain _ ih => exact List.forall_mem_cons.2 ⟨hplain, ih (List.cons.inj htext).2⟩
  | escape hls hlater =>
    obtain ⟨more, hread, hmore⟩ := exists_of_escape hls hlater (List.cons.inj htext).2
    have hle := hlater.length_le hmore
    have hlong := List.length_pos_iff.2 hls.ne_nil
    rw [hread, List.length_append] at hle
    omega

/-! ## Between triple quotes -/

/-- The least that is known of a basic form between triple quotes and the number of characters that
it is read as: it is closed by three quotes, and no part of it is read as more than one. -/
inductive MultiForm : List Char → Nat → Prop
  | close {cs : List Char} {n : Nat} : n ≤ 2 → MultiForm ('"' :: '"' :: '"' :: cs) n
  | part {w cs : List Char} {n m : Nat} : w ≠ [] → MultiForm cs n → m ≤ n + 1 →
      MultiForm (w ++ cs) m

/-- A part that is read as a character stands in front of the others. -/
theorem MultiForm.of_prepend {w later : List Char} {r : Option (List Char × List Char)}
    (hw : w ≠ []) (ih : ∀ {more}, r = some (more, rest) → MultiForm later more.length)
    (h : prepend c r = some (read, rest)) : MultiForm (w ++ later) read.length := by
  obtain ⟨more, rfl, hread⟩ := Quoted.of_prepend h
  exact .part hw (ih hread) (Nat.le_refl _)

/-- At most two more quotes than the closing ones are read. -/
theorem length_le_of_closeMulti {q : Char} (h : closeMulti q cs = some (read, rest)) :
    read.length ≤ 2 := by
  unfold closeMulti at h
  dsimp only at h
  split at h
  · next hshort =>
    cases h
    exact hshort
  · cases h

/-- The reader keeps to the form. -/
theorem multiForm_of_readMultiBasic {skipping : Bool}
    (h : readMultiBasic skipping cs = some (read, rest)) : MultiForm cs read.length := by
  fun_induction readMultiBasic skipping cs generalizing read with
  | case1 later ih => exact .part (w := ['\r', '\n']) nofun (ih h) (Nat.le_succ _)
  | case2 _ later _ ih => exact .of_prepend (w := ['\r', '\n']) nofun ih h
  | case3 => exact .close (length_le_of_closeMulti h)
  | case4 _ later _ ih => exact .of_prepend (w := ['"']) nofun ih h
  | case5 _ a b c d later ih =>
    obtain ⟨e, -, h⟩ := Option.bind_eq_some_iff.1 h
    exact .of_prepend (w := ['\\', 'u', a, b, c, d]) nofun ih h
  | case6 _ a b c d e f g h' later ih =>
    obtain ⟨x, -, h⟩ := Option.bind_eq_some_iff.1 h
    exact .of_prepend (w := ['\\', 'U', a, b, c, d, e, f, g, h']) nofun ih h
  | case7 _ l later _ _ _ ih => exact .part (w := ['\\', l]) nofun (ih h) (Nat.le_succ _)
  | case8 _ l later _ _ _ ih =>
    obtain ⟨e, -, h⟩ := Option.bind_eq_some_iff.1 h
    exact .of_prepend (w := ['\\', l]) nofun ih h
  | case9 _ c later _ _ _ _ _ _ _ ih => exact .part (w := [c]) nofun (ih h) (Nat.le_succ _)
  | case10 _ c later _ _ _ _ _ _ _ _ ih => exact .of_prepend (w := [c]) nofun ih h
  | case11 => cases h
  | case12 => cases h

/-- Three quotes close the form. -/
theorem MultiForm.quotes_isInfix {n : Nat} (h : MultiForm cs n) : ['"', '"', '"'] <:+: cs := by
  induction h with
  | close => exact (List.prefix_append ['"', '"', '"'] _).isInfix
  | part _ _ _ ih => exact ih.trans (List.suffix_append _ _).isInfix

/-- A form between triple quotes that is not closed behind a text is not read as more characters
than that text has. -/
theorem MultiForm.length_le {text : List Char} {n : Nat} (h : MultiForm text n)
    (htail : ¬ ['"', '"', '"'] <:+: '"' :: '\n' :: tail)
    (htext : text = cs ++ '"' :: '\n' :: tail) : n ≤ cs.length := by
  induction h generalizing cs with
  | close hn =>
    match cs with
    | [] | [_] => simp at htext
    | _ :: _ :: cs => exact hn.trans (Nat.le_add_left 2 cs.length)
  | part hw hlater hm ih =>
    rcases List.append_eq_append_iff.1 htext with ⟨more, rfl, hmore⟩ | ⟨beyond, -, hbeyond⟩
    · have hle := ih hmore
      have hlong := List.length_pos_iff.2 hw
      rw [List.length_append]
      omega
    · refine absurd (hlater.quotes_isInfix.trans ?_) htail
      rw [hbeyond]
      exact (List.suffix_append _ _).isInfix

/-! ## Either form -/

/-- A text without escapes and quotation marks is read up to the next one. -/
theorem readBasic_append (h : ∀ c ∈ cs, isPlainBasic c) (rest : List Char) :
    readBasic (cs ++ '"' :: rest) = some (cs, rest) := by
  induction cs with
  | nil => rfl
  | cons c cs ih =>
    obtain ⟨hc, hcs⟩ := List.forall_mem_cons.1 h
    rw [List.cons_append, ← List.singleton_append, readBasic_of_escaped (.plain hc), ih hcs]
    rfl

/-- A line end that is dropped is one of the text, if the line goes on behind it. -/
theorem exists_dropNewline (cs tail : List Char) :
    ∃ ds, dropNewline (cs ++ '"' :: tail) = ds ++ '"' :: tail ∧ ds.length ≤ cs.length := by
  unfold dropNewline
  split
  · next rest h =>
    cases cs with
    | nil => cases (List.cons.inj h).1
    | cons c cs => exact ⟨cs, (List.cons.inj h).2.symm, Nat.le_succ _⟩
  · next rest h =>
    match cs with
    | [] => cases (List.cons.inj h).1
    | [_] => cases (List.cons.inj (List.cons.inj h).2).1
    | _ :: _ :: cs =>
      exact ⟨cs, (List.cons.inj (List.cons.inj h).2).2.symm, Nat.le_add_right cs.length 2⟩
  · exact ⟨cs, rfl, Nat.le_refl _⟩

/-- Two more quotes at least open a form between triple ones. -/
theorem read_eq_readBasic (h : ∀ more, cs ≠ '"' :: '"' :: more) :
    Quoted.read ('"' :: cs) = readBasic cs := by
  unfold Quoted.read
  split
  · next heq => exact absurd (List.cons.inj heq).2 (h _)
  · next heq => rw [(List.cons.inj heq).2]
  · next heq => cases (List.cons.inj heq).1
  · next heq => cases (List.cons.inj heq).1
  · next hbasic _ _ => exact absurd rfl (hbasic cs)

/-- A text that starts with a quotation mark is not read back from between two of them. -/
theorem read_ne_of_quote (htail : ¬ ['"', '"', '"'] <:+: '"' :: '\n' :: tail) :
    Quoted.read ('"' :: ('"' :: cs ++ '"' :: '\n' :: tail)) ≠ some ('"' :: cs, rest) := by
  intro h
  match cs with
  | [] =>
    -- Nothing closes the triple quote that has come about.
    have hform : MultiForm tail _ := multiForm_of_readMultiBasic h
    exact htail (hform.quotes_isInfix.trans (List.suffix_append ['"', '\n'] tail).isInfix)
  | c :: cs =>
    by_cases hc : c = '"'
    · subst hc
      obtain ⟨ds, hds, hle⟩ := exists_dropNewline cs ('\n' :: tail)
      have hread : readMultiBasic false (ds ++ '"' :: '\n' :: tail) =
          some ('"' :: '"' :: cs, rest) := by
        rw [← hds]
        exact h
      have hlong := (multiForm_of_readMultiBasic hread).length_le htail rfl
      simp only [List.length_cons] at hlong
      omega
    · have hline : Quoted.read ('"' :: ('"' :: c :: cs ++ '"' :: '\n' :: tail)) =
          readBasic ('"' :: c :: cs ++ '"' :: '\n' :: tail) :=
        read_eq_readBasic fun more heq => hc (List.cons.inj (List.cons.inj heq).2).1
      rw [hline] at h
      cases h

/-- A text that may stand as it is is read back from between quotes at the end of a line. -/
theorem read_of_isPlainBasic (h : ∀ c ∈ cs, isPlainBasic c) (tail : List Char) :
    Quoted.read ('"' :: (cs ++ '"' :: '\n' :: tail)) = some (cs, '\n' :: tail) := by
  rw [read_eq_readBasic, readBasic_append h]
  cases cs with
  | nil => simp
  | cons c cs =>
    intro more heq
    rw [(List.cons.inj heq).1] at h
    cases h '"' (.head _)

/-- A text that is read back from between quotes at the end of a line may stand as it is. -/
theorem isPlainBasic_of_read (htail : ¬ ['"', '"', '"'] <:+: '"' :: '\n' :: tail)
    (h : Quoted.read ('"' :: (cs ++ '"' :: '\n' :: tail)) = some (cs, rest)) :
    ∀ c ∈ cs, isPlainBasic c := by
  cases cs with
  | nil => exact nofun
  | cons c cs =>
    by_cases hc : c = '"'
    · subst hc
      exact absurd h (read_ne_of_quote htail)
    · have hline : Quoted.read ('"' :: (c :: cs ++ '"' :: '\n' :: tail)) =
          readBasic (c :: cs ++ '"' :: '\n' :: tail) :=
        read_eq_readBasic fun more heq => hc (List.cons.inj heq).1
      rw [hline] at h
      exact (basicForm_of_readBasic h).all_isPlainBasic rfl

/-- **What stands between quotes at the end of a line is read as it is, just if it may stand so.** -/
theorem read_verbatim_iff (htail : ¬ ['"', '"', '"'] <:+: '"' :: '\n' :: tail) :
    Quoted.read ('"' :: (cs ++ '"' :: '\n' :: tail)) = some (cs, rest) ↔
      rest = '\n' :: tail ∧ ∀ c ∈ cs, isPlainBasic c := by
  constructor
  · intro h
    have hplain := isPlainBasic_of_read htail h
    rw [read_of_isPlainBasic hplain] at h
    cases h
    exact ⟨rfl, hplain⟩
  · rintro ⟨rfl, hplain⟩
    exact read_of_isPlainBasic hplain tail

end ReactorDeploy.Toml.Quoted
