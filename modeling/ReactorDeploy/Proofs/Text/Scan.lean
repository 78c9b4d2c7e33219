import ReactorDeploy.Text.Blank
import Mathlib.Data.List.TakeWhile

/-!
# Scanning off the front of a text

The readers of this project take a run of characters off the front of a text with `takeWhile` and
go on with what `dropWhile` leaves. Where a run stops is a matter of the text behind it alone
(`Stops`), so a written run is read back as it was as soon as the text behind it stops it.
Trimming is a scan from both ends, and a trimmed text has nothing left to trim.
-/

namespace ReactorDeploy.Text

variable {p : Char → Bool} {run rest cs : List Char}

/-! ## Runs -/

/-- A text that a run of characters with the property `p` cannot go on into: it is empty, or its
first character lacks the property. -/
def Stops (p : Char → Bool) (rest : List Char) : Prop :=
  ∀ c ∈ rest.head?, p c = false

@[simp] theorem stops_nil : Stops p [] := by
  simp [Stops]

@[simp] theorem stops_cons {c : Char} : Stops p (c :: rest) ↔ p c = false := by
  simp [Stops]

/-- What stops a run stops its scan. -/
theorem Stops.takeWhile_eq_nil (h : Stops p rest) : rest.takeWhile p = [] := by
  cases rest with
  | nil => rfl
  | cons c rest => simp [stops_cons.1 h]

/-- Nothing is dropped from a text that stops the run. -/
theorem Stops.dropWhile_eq_self (h : Stops p rest) : rest.dropWhile p = rest := by
  cases rest with
  | nil => rfl
  | cons c rest => simp [stops_cons.1 h]

/-- A run that is stopped is scanned whole, and no more than that. -/
theorem takeWhile_run (hrun : ∀ c ∈ run, p c) (hrest : Stops p rest) :
    (run ++ rest).takeWhile p = run := by
  rw [List.takeWhile_append_of_pos hrun, hrest.takeWhile_eq_nil, List.append_nil]

/-- What is left behind a run is the text that stops it. -/
theorem dropWhile_run (hrun : ∀ c ∈ run, p c) (hrest : Stops p rest) :
    (run ++ rest).dropWhile p = rest := by
  rw [List.dropWhile_append_of_pos hrun, hrest.dropWhile_eq_self]

/-- A scan stops where it says. -/
theorem stops_dropWhile (p : Char → Bool) (cs : List Char) : Stops p (cs.dropWhile p) := by
  induction cs with
  | nil => exact stops_nil
  | cons c cs ih =>
    rw [List.dropWhile_cons]
    split
    · exact ih
    · next h => exact stops_cons.2 (by simpa using h)

/-! ## Trimming -/

/-- A text whose last character stays is not shortened. -/
theorem dropTail_eq_self (h : Stops p cs.reverse) : dropTail p cs = cs := by
  rw [dropTail, h.dropWhile_eq_self, List.reverse_reverse]

/-- The end of a text with a tail dropped stays. -/
theorem stops_reverse_dropTail (p : Char → Bool) (cs : List Char) :
    Stops p (dropTail p cs).reverse := by
  rw [dropTail, List.reverse_reverse]
  exact stops_dropWhile p _

/-- Dropping a tail keeps what the text starts with. -/
theorem dropTail_isPrefix_self (p : Char → Bool) (cs : List Char) : dropTail p cs <+: cs :=
  ⟨_, dropTail_append_takeWhile p cs⟩

/-- A text that starts with no blank still does when its tail is dropped. -/
theorem Stops.dropTail (h : Stops p cs) : Stops p (dropTail p cs) := by
  intro c hc
  obtain ⟨tail, htail⟩ := dropTail_isPrefix_self p cs
  cases hd : Text.dropTail p cs with
  | nil => simp [hd] at hc
  | cons d ds =>
    rw [hd] at hc htail
    have hcd : d = c := by simpa using hc
    exact h c (by rw [← htail, ← hcd]; rfl)

/-- A trimmed text has nothing left to trim. -/
theorem trimChars_trimChars (cs : List Char) : trimChars (trimChars cs) = trimChars cs := by
  have hstart : Stops isBlank (trimChars cs) := (stops_dropWhile isBlank cs).dropTail
  have hend : Stops isBlank (trimChars cs).reverse := stops_reverse_dropTail isBlank _
  rw [trimChars, hstart.dropWhile_eq_self, dropTail_eq_self hend]

/-- A trimmed text has nothing left to trim. -/
@[simp] theorem trim_trim (s : String) : trim (trim s) = trim s := by
  rw [trim, trim, String.toList_ofList, trimChars_trimChars]

/-- A text without blanks is trimmed already. -/
theorem trim_eq_self {s : String} (h : ∀ c ∈ s.toList, isBlank c = false) : trim s = s := by
  have hstops : ∀ cs : List Char, (∀ c ∈ cs, c ∈ s.toList) → Stops isBlank cs := fun cs hcs c hc =>
    h c (hcs c (List.mem_of_mem_head? hc))
  rw [trim, trimChars, (hstops _ fun _ => id).dropWhile_eq_self,
    dropTail_eq_self (hstops _ fun _ => List.mem_reverse.1), String.ofList_toList]

/-- What is scanned off has the property, so a character without it is left. -/
theorem mem_dropWhile_iff {c : Char} (h : p c = false) : c ∈ cs.dropWhile p ↔ c ∈ cs := by
  refine ⟨fun hc => (List.dropWhile_sublist p).mem hc, fun hc => ?_⟩
  rw [← List.takeWhile_append_dropWhile (p := p) (l := cs), List.mem_append] at hc
  refine hc.resolve_left fun htaken => ?_
  rw [List.mem_takeWhile_imp htaken] at h
  cases h

/-- Only blanks are trimmed off. -/
theorem mem_trim_iff {s : String} {c : Char} (h : isBlank c = false) :
    c ∈ (trim s).toList ↔ c ∈ s.toList := by
  rw [trim, String.toList_ofList, trimChars, dropTail, List.mem_reverse, mem_dropWhile_iff h,
    List.mem_reverse, mem_dropWhile_iff h]

/-- What `stripEnd` cuts off passes the test. -/
theorem exists_stripEnd_append (p : Char → Bool) (s : String) :
    ∃ cs, s.toList = (stripEnd p s).toList ++ cs ∧ ∀ c ∈ cs, p c = true := by
  refine ⟨(s.toList.reverse.takeWhile p).reverse, ?_, fun c hc => ?_⟩
  · rw [stripEnd, String.toList_ofList, dropTail_append_takeWhile]
  · exact List.mem_takeWhile_imp (List.mem_reverse.1 hc)

/-- Nothing is left of a text exactly if all of it passes the test. -/
theorem stripEnd_eq_empty_iff {p : Char → Bool} {s : String} :
    stripEnd p s = "" ↔ ∀ c ∈ s.toList, p c = true := by
  rw [← String.toList_inj, stripEnd, String.toList_ofList, dropTail]
  simp [List.dropWhile_eq_nil_iff]

/-- If anything is left of the end of a text, all that is before it is left. -/
theorem stripEnd_append_of_ne_empty (s : String) {t : String} (h : stripEnd p t ≠ "") :
    stripEnd p (s ++ t) = s ++ stripEnd p t := by
  have hreverse : t.toList.reverse.dropWhile p ≠ [] := by
    intro hnil
    rw [stripEnd, dropTail, hnil] at h
    exact h rfl
  rw [stripEnd, dropTail, String.toList_append, List.reverse_append, List.dropWhile_append,
    if_neg (by simpa using hreverse), List.reverse_append, List.reverse_reverse,
    String.ofList_append, String.ofList_toList]
  rfl

end ReactorDeploy.Text
