import ReactorDeploy.CMake.Document
import ReactorDeploy.Config.Fragment
import ReactorDeploy.Proofs.Text.Lines
import Mathlib.Data.List.Basic

/-!
# Reading quoted text

A quoted text is read from its opening quotation mark on, a backslash making the next character
literal, up to the first quotation mark that is not (`readQuoted?`). Both ways of quoting come to the
same text (`quotedByReplacement_eq`), and whatever comes behind it, what is read there is the text
that was quoted, and nothing else (`quoted_reads_back`). What stands between the quotes has the lines of
the text, each of them escaped (`lines_escaped`).
-/

namespace ReactorDeploy.Text

/-! ## Reading -/

/-- What is read behind an opening quotation mark, up to the closing one, and what comes behind
that. -/
def readBody? : List Char → Option (List Char × List Char)
  | [] => none
  | '"' :: rest => some ([], rest)
  | '\\' :: c :: cs => (readBody? cs).map fun found => (c :: found.1, found.2)
  | c :: cs => (readBody? cs).map fun found => (c :: found.1, found.2)

/-- The text that is quoted at the start of another one, and what comes behind the closing quotation
mark. -/
def readQuoted? (s : String) : Option (String × String) :=
  match s.toList with
  | '"' :: cs => (readBody? cs).map fun found => (String.ofList found.1, String.ofList found.2)
  | _ => none

/-- The text of a literal, if one is all there is. -/
def literal? (s : String) : Option String :=
  (readQuoted? s).bind fun found => if found.2 = "" then some found.1 else none

/-- An escaped character is read as the character. -/
theorem readBody?_escapeChar (c : Char) (cs : List Char) :
    readBody? (escapeChar c ++ cs) =
      (readBody? cs).map fun found => (c :: found.1, found.2) := by
  by_cases hescape : c = '"' ∨ c = '\\'
  · rw [escapeChar, if_pos hescape]
    rfl
  · rw [escapeChar, if_neg hescape, List.singleton_append]
    rw [not_or] at hescape
    rw [readBody?]
    · exact hescape.1
    · rintro _ _ rfl -
      exact hescape.2 rfl

/-- An escaped text is read up to the quotation mark behind it. -/
theorem readBody?_escaped (cs rest : List Char) :
    readBody? (cs.flatMap escapeChar ++ '"' :: rest) = some (cs, rest) := by
  induction cs with
  | nil => rfl
  | cons c cs ih =>
    rw [List.flatMap_cons, List.append_assoc, readBody?_escapeChar, ih]
    rfl

/-- What is read of a quoted text is the text, whatever comes behind. -/
theorem readQuoted?_quoted (s rest : String) : readQuoted? (quoted s ++ rest) = some (s, rest) := by
  have htext : (quoted s ++ rest).toList =
      '"' :: (s.toList.flatMap escapeChar ++ '"' :: rest.toList) := by
    simp [quoted]
  rw [readQuoted?, htext]
  show (readBody? (s.toList.flatMap escapeChar ++ '"' :: rest.toList)).map _ = _
  rw [readBody?_escaped, Option.map_some, String.ofList_toList, String.ofList_toList]

/-- A quoted text is a literal. -/
@[simp] theorem literal?_quoted (s : String) : literal? (quoted s) = some s := by
  have hread := readQuoted?_quoted s ""
  rw [String.append_empty] at hread
  rw [literal?, hread]
  rfl

/-- A text without quotation marks and backslashes is quoted as it is. -/
theorem quoted_eq {s : String} (h : ∀ c ∈ s.toList, c ≠ '"' ∧ c ≠ '\\') :
    quoted s = "\"" ++ s ++ "\"" := by
  have hescape : s.toList.flatMap escapeChar = s.toList := by
    have hchar : ∀ c ∈ s.toList, escapeChar c = [c] := fun c hc =>
      if_neg (not_or.2 (h c hc))
    rw [List.flatMap_congr hchar, List.flatMap_singleton']
  rw [quoted, hescape, String.ofList_toList]

/-- Quoting neither adds line feeds nor takes any away. -/
theorem lineFeed_mem_quoted_iff {s : String} :
    '\n' ∈ (quoted s).toList ↔ '\n' ∈ s.toList := by
  have hchar : ∀ c, '\n' ∈ escapeChar c ↔ '\n' = c := by
    intro c
    unfold escapeChar
    split
    · next h => rcases h with rfl | rfl <;> decide
    · exact List.mem_singleton
  simp [quoted, hchar]

/-- What is read and what comes behind it are shorter than the text by the closing quotation mark
at least. -/
theorem length_lt_of_readBody? {cs : List Char} {found : List Char × List Char}
    (h : readBody? cs = some found) : found.1.length + found.2.length < cs.length := by
  fun_induction readBody? cs generalizing found with
  | case1 => cases h
  | case2 rest =>
    cases h
    simp
  | case3 c cs ih =>
    obtain ⟨found, hfound, rfl⟩ := Option.map_eq_some_iff.1 h
    have hlength := ih hfound
    simp only [List.length_cons]
    omega
  | case4 c cs _ _ ih =>
    obtain ⟨found, hfound, rfl⟩ := Option.map_eq_some_iff.1 h
    have hlength := ih hfound
    simp only [List.length_cons]
    omega

/-- With the opening one, both quotation marks are gone. -/
theorem length_lt_of_readQuoted? {s t rest : String} (h : readQuoted? s = some (t, rest)) :
    t.length + rest.length + 1 < s.length := by
  unfold readQuoted? at h
  split at h
  · next cs hs =>
    obtain ⟨found, hfound, hpair⟩ := Option.map_eq_some_iff.1 h
    have hlength := length_lt_of_readBody? hfound
    cases hpair
    rw [← String.length_toList (s := s), hs, String.length_ofList, String.length_ofList,
      List.length_cons]
    omega
  · cases h

/-- Different texts are quoted differently. -/
theorem quoted_injective : Function.Injective quoted := by
  intro s t h
  have hread := readQuoted?_quoted s ""
  rw [h, readQuoted?_quoted t ""] at hread
  exact (congrArg Prod.fst (Option.some.inj hread)).symm

/-! ## Escaped texts -/

/-- A text as it stands within quotes. -/
def escaped (s : String) : String :=
  String.ofList (s.toList.flatMap escapeChar)

/-- The lines of a text within quotes are those of the text, each of them as it stands there. -/
theorem lines_escaped (s : String) : lines (escaped s) = (lines s).map escaped := by
  obtain ⟨cs, rfl⟩ : ∃ cs, s = String.ofList cs := ⟨s.toList, String.ofList_toList.symm⟩
  induction cs with
  | nil => rfl
  | cons c cs ih =>
    have htext : String.ofList (c :: cs) = String.ofList [c] ++ String.ofList cs := by simp
    have hescaped : escaped (String.ofList [c] ++ String.ofList cs) =
        String.ofList (escapeChar c) ++ escaped (String.ofList cs) := by
      simp [escaped]
    rw [htext, hescaped]
    by_cases hfeed : c = '\n'
    · subst hfeed
      show lines ("\n" ++ _) = (lines ("\n" ++ _)).map escaped
      rw [lines_lineFeed_append, lines_lineFeed_append, ih]
      rfl
    · have hchar : '\n' ∉ (String.ofList (escapeChar c)).toList := by
        rw [String.toList_ofList, escapeChar]
        split <;> simpa using Ne.symm hfeed
      obtain ⟨first, rest, hfirst⟩ := List.exists_cons_of_ne_nil (lines_ne_nil (String.ofList cs))
      rw [lines_append_of_notMem hchar, lines_append_of_notMem (by simpa using Ne.symm hfeed), ih,
        hfirst]
      simp [escaped]

/-- Escaping what stands between quotes leaves the blanks at its start. -/
theorem dropWhile_isBlank_flatMap_escapeChar (cs : List Char) :
    (cs.flatMap escapeChar).dropWhile isBlank =
      (cs.dropWhile isBlank).flatMap escapeChar := by
  induction cs with
  | nil => rfl
  | cons c cs ih =>
    rw [List.flatMap_cons, List.dropWhile_cons]
    by_cases hescape : c = '"' ∨ c = '\\'
    · have hblank : isBlank c = false := by
        rcases hescape with rfl | rfl <;> rfl
      have hbackslash : isBlank '\\' = false := rfl
      simp [escapeChar, hescape, hblank, hbackslash]
    · rw [escapeChar, if_neg hescape, List.singleton_append, List.dropWhile_cons]
      split
      · exact ih
      · rw [List.flatMap_cons, escapeChar, if_neg hescape, List.singleton_append]

/-- A start without characters that are escaped is there behind escaping just if it was before. -/
theorem prefix_flatMap_escapeChar_iff {start : List Char}
    (h : ∀ c ∈ start, ¬ (c = '"' ∨ c = '\\')) (cs : List Char) :
    start <+: cs.flatMap escapeChar ↔ start <+: cs := by
  induction start generalizing cs with
  | nil => exact iff_of_true List.nil_prefix List.nil_prefix
  | cons d start ih =>
    rw [List.forall_mem_cons] at h
    cases cs with
    | nil => rfl
    | cons c cs =>
      rw [List.flatMap_cons, escapeChar]
      by_cases hescape : c = '"' ∨ c = '\\'
      · rw [if_pos hescape, List.cons_append, List.cons_prefix_cons, List.cons_prefix_cons]
        refine iff_of_false (fun hd => h.1 (.inr hd.1)) (fun hd => h.1 (hd.1 ▸ hescape))
      · rw [if_neg hescape, List.singleton_append, List.cons_prefix_cons, List.cons_prefix_cons,
          ih h.2]

/-! ## Two ways of quoting -/

/-- What the two replacements make of a character is the character escaped: the backslash that comes
before a quotation mark is no longer there to be replaced. -/
theorem replaceChar_replaceChar (c : Char) :
    replaceChar '"' ['\\', '"'] (if c = '\\' then ['\\', '\\'] else [c]) = escapeChar c := by
  unfold escapeChar
  by_cases hbackslash : c = '\\'
  · subst hbackslash
    decide
  · by_cases hquote : c = '"'
    · subst hquote
      decide
    · simp [replaceChar, hbackslash, hquote]

/-- Both ways of quoting come to the same. -/
theorem quotedByReplacement_eq (s : String) : quotedByReplacement s = quoted s := by
  have hescape : replaceChar '"' ['\\', '"'] (replaceChar '\\' ['\\', '\\'] s.toList) =
      s.toList.flatMap escapeChar := by
    rw [replaceChar, replaceChar, List.flatMap_assoc]
    exact List.flatMap_congr fun c _ => replaceChar_replaceChar c
  rw [quotedByReplacement, hescape, quoted]

theorem quotedByReplacement_injective : Function.Injective quotedByReplacement := by
  rw [funext quotedByReplacement_eq]
  exact quoted_injective

/-- **Quoted texts are read back.** An argument of a build descriptor and a value of a configuration
are quoted in the same way. Whatever is quoted and whatever comes behind it, reading stops at the
closing quotation mark, with the text that was quoted. So different texts are quoted differently. -/
theorem quoted_reads_back :
    (∀ s, CMake.quoted s = (Config.Value.str s).render) ∧
    (∀ s rest, readQuoted? (CMake.quoted s ++ rest) = some (s, rest)) ∧
    Function.Injective CMake.quoted ∧
    Function.Injective fun s => (Config.Value.str s).render := by
  have hsame : ∀ s, CMake.quoted s = quoted s := quotedByReplacement_eq
  refine ⟨hsame, fun s rest => ?_, quotedByReplacement_injective, quoted_injective⟩
  rw [hsame]
  exact readQuoted?_quoted s rest

example : readQuoted? "\"a\\\\\" b\"" = some ("a\\", " b\"") := by
  decide +kernel

end ReactorDeploy.Text
