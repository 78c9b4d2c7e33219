import ReactorDeploy.Proofs.Toml.Quoted
import ReactorDeploy.Proofs.Toml.Scalar
import ReactorDeploy.Toml.Printer
import ReactorDeploy.Toml.Reader

/-!
# Written documents read back

A document that is written block by block is read back as the lines of its blocks
(`readsAs_renderBlocks`), if its keys can be written without quotes and its integers are within
the bounds of the format. Keys, values, pairs and headers each have a lemma of the same shape:
their written form is read off the front of a text, and what follows is left.
-/

namespace ReactorDeploy.Toml

open Text (Stops stops_cons)

variable {rest : List Char}

/-! ## Blanks -/

/-- There are no blanks to skip in front of anything else. -/
theorem skipBlanks_of_stops (h : Stops isInlineBlank rest) : skipBlanks rest = rest :=
  h.dropWhile_eq_self

/-! ## Keys -/

/-- Whether a text can be a part of a key without quotes. -/
def isBareText (s : String) : Bool :=
  !s.toList.isEmpty && s.toList.all isBare

/-- Whether a key can be written without quotes and is short enough to be read. -/
def Key.isBare (key : Key) : Bool :=
  (key.parents ++ [key.name]).all isBareText && key.parents.length < 79

/-- What starts a bare text is a bare character. -/
theorem exists_cons_of_isBareText {s : String} (h : isBareText s) :
    ∃ c cs, s.toList = c :: cs ∧ isBare c ∧ ∀ d ∈ s.toList, isBare d := by
  obtain ⟨hne, hall⟩ := Bool.and_eq_true_iff.1 h
  have hall : ∀ d ∈ s.toList, isBare d := List.all_eq_true.1 hall
  cases hs : s.toList with
  | nil =>
    rw [hs] at hne
    cases hne
  | cons c cs =>
    rw [hs] at hall
    exact ⟨c, cs, rfl, hall c (.head _), hall⟩

/-- A bare character is none that is not bare. -/
theorem ne_of_isBare {c d : Char} (hc : isBare c) (hd : isBare d = false) : c ≠ d := by
  rintro rfl
  rw [hc] at hd
  cases hd

/-- A bare character is no blank. -/
theorem isInlineBlank_of_isBare {c : Char} (h : isBare c) : isInlineBlank c = false :=
  Bool.or_eq_false_iff.2
    ⟨beq_eq_false_iff_ne.2 (ne_of_isBare h rfl), beq_eq_false_iff_ne.2 (ne_of_isBare h rfl)⟩

/-- No blanks stand in front of a bare text. -/
theorem skipBlanks_bare {s : String} (h : isBareText s) (rest : List Char) :
    skipBlanks (s.toList ++ rest) = s.toList ++ rest := by
  obtain ⟨c, cs, hs, hc, -⟩ := exists_cons_of_isBareText h
  rw [hs]
  exact skipBlanks_of_stops (stops_cons.2 (isInlineBlank_of_isBare hc))

/-- A bare text is read as a part of a key. -/
theorem readPart_bare {s : String} (h : isBareText s) (hrest : Stops isBare rest) :
    readPart (s.toList ++ rest) = some (s, rest) := by
  obtain ⟨c, cs, hs, hc, hall⟩ := exists_cons_of_isBareText h
  unfold readPart
  split
  · next heq =>
    rw [hs] at heq
    exact absurd (List.cons.inj heq).1 (ne_of_isBare hc rfl)
  · next heq =>
    rw [hs] at heq
    exact absurd (List.cons.inj heq).1 (ne_of_isBare hc rfl)
  · rw [Text.takeWhile_run hall hrest, Text.dropWhile_run hall hrest]
    dsimp only
    rw [if_neg (by simp [hs]), String.ofList_toList]

/-- Bare texts with dots between them are read as the parts of a key, and the blanks behind them
are skipped. -/
theorem readParts_render {parts : List String} {limit : Nat} (hparts : ∀ p ∈ parts, isBareText p)
    (hne : parts ≠ []) (hlimit : parts.length ≤ limit) (hrest : Stops isBare rest)
    (hdot : ∀ tail, skipBlanks rest ≠ '.' :: tail) :
    readParts limit ((".".intercalate parts).toList ++ rest) = some (parts, skipBlanks rest) := by
  induction parts generalizing limit with
  | nil => exact absurd rfl hne
  | cons p ps ih =>
    have hp := hparts p (.head _)
    cases limit with
    | zero => exact absurd hlimit (Nat.not_succ_le_zero _)
    | succ limit =>
      cases ps with
      | nil =>
        rw [String.intercalate_singleton, readParts, skipBlanks_bare hp, readPart_bare hp hrest,
          Option.bind_eq_bind, Option.bind_some]
        dsimp only
        split
        · next heq => exact absurd heq (hdot _)
        · rfl
      | cons q qs =>
        have hstep := ih (fun r hr => hparts r (.tail _ hr)) (List.cons_ne_nil q qs)
          (Nat.le_of_succ_le_succ hlimit)
        rw [String.intercalate_cons_cons, String.toList_append, String.toList_append,
          List.append_assoc, List.append_assoc]
        generalize (".".intercalate (q :: qs)).toList ++ rest = more at hstep
        have hdot : Stops isBare ('.' :: more) := stops_cons.2 rfl
        have hread := readPart_bare hp hdot
        have hblanks : skipBlanks ('.' :: more) = '.' :: more :=
          skipBlanks_of_stops (stops_cons.2 rfl)
        rw [show ".".toList ++ more = '.' :: more from rfl, readParts, skipBlanks_bare hp, hread,
          Option.bind_eq_bind, Option.bind_some]
        dsimp only
        simp only [hblanks, hstep]
        rfl

/-- A written key is read, and the blanks behind it are skipped. -/
theorem readKey_render {key : Key} (hkey : key.isBare) (hrest : Stops isBare rest)
    (hdot : ∀ tail, skipBlanks rest ≠ '.' :: tail) :
    readKey (key.render.toList ++ rest) = some (key, skipBlanks rest) := by
  obtain ⟨hparts, hlength⟩ := Bool.and_eq_true_iff.1 hkey
  have hparts : ∀ p ∈ key.parents ++ [key.name], isBareText p := List.all_eq_true.1 hparts
  have hlength : (key.parents ++ [key.name]).length ≤ 79 := by
    rw [List.length_append]
    exact of_decide_eq_true hlength
  have hread := readParts_render hparts (by simp) hlength hrest hdot
  rw [readKey, Key.render, hread]
  simp [Key.ofParts?]

/-- What starts a written key is a bare character. -/
theorem exists_cons_of_isBare {key : Key} (h : key.isBare) :
    ∃ c cs, key.render.toList = c :: cs ∧ isBare c := by
  have hparts : ∀ p ∈ key.parents ++ [key.name], isBareText p :=
    List.all_eq_true.1 (Bool.and_eq_true_iff.1 h).1
  rw [Key.render]
  cases hps : key.parents ++ [key.name] with
  | nil => simp at hps
  | cons p ps =>
    rw [hps] at hparts
    obtain ⟨c, cs, hp, hc, -⟩ := exists_cons_of_isBareText (hparts p (.head _))
    cases ps with
    | nil => exact ⟨c, cs, by rw [String.intercalate_singleton, hp], hc⟩
    | cons q qs =>
      rw [String.intercalate_cons_cons, String.toList_append, String.toList_append, hp]
      exact ⟨c, _, rfl, hc⟩

/-! ## Values -/

/-- What starts a written string is a quote. -/
theorem exists_cons_of_quote (s : String) :
    ∃ q cs, (Quoted.quote s).toList = q :: cs ∧ (q = '"' ∨ q = '\'') := by
  rw [Quoted.quote, String.toList_ofList]
  cases Quoted.formFor s.toList with
  | basic | multiBasic => exact ⟨'"', _, rfl, .inl rfl⟩
  | literal | multiLiteral => exact ⟨'\'', _, rfl, .inr rfl⟩

/-- A written string is read as a value. -/
theorem readValueWithin_quote (fuel depth : Nat) (s : String)
    (hrest : Stops (fun c => c == '"' || c == '\'') rest) :
    readValueWithin (fuel + 1) depth ((Quoted.quote s).toList ++ rest) =
      some (.string s, rest) := by
  have hread : Quoted.read ((Quoted.quote s).toList ++ rest) = some (s.toList, rest) := by
    rw [Quoted.quote, String.toList_ofList]
    exact Quoted.read_encode s.toList hrest
  obtain ⟨q, cs, hs, hq⟩ := exists_cons_of_quote s
  rw [hs, List.cons_append] at hread ⊢
  unfold readValueWithin
  rcases hq with rfl | rfl
  · dsimp only
    rw [hread, Option.map_some, String.ofList_toList]
    rfl
  · dsimp only
    rw [hread, Option.map_some, String.ofList_toList]
    rfl

/-- No line ends or blanks stand in front of a written string. -/
theorem skipLines_quote (s : String) (rest : List Char) :
    skipLines false ((Quoted.quote s).toList ++ rest) = (Quoted.quote s).toList ++ rest := by
  obtain ⟨q, cs, hs, hq⟩ := exists_cons_of_quote s
  rw [hs]
  rcases hq with rfl | rfl <;> rfl

/-- A written string is read as an item of a list, and what comes next decides how it goes on. -/
theorem readItems_quote {cs : List Char} {s : String} (fuel depth : Nat)
    (hcs : skipLines false cs = (Quoted.quote s).toList ++ rest)
    (hrest : Stops (fun c => c == '"' || c == '\'') rest) :
    readItems (fuel + 2) depth cs =
      match skipLines false rest with
      | ',' :: rest => do
        let (items, rest) ← readItems (fuel + 1) depth rest
        return (.string s :: items, rest)
      | ']' :: rest => return ([.string s], rest)
      | _ => none := by
  have hvalue := readValueWithin_quote fuel depth s hrest
  obtain ⟨q, ds, hs, hq⟩ := exists_cons_of_quote s
  rw [hs, List.cons_append] at hvalue hcs
  rw [readItems, hcs]
  split
  · next heq =>
    rw [(List.cons.inj heq).1] at hq
    rcases hq with h | h <;> cases h
  · rw [hvalue]
    rfl

/-- Strings on a line each are read as the items of a list. -/
theorem readItems_quotes {fuel : Nat} (items : List String) (hfuel : items.length < fuel)
    (depth : Nat) (rest : List Char) :
    readItems fuel depth ('\n' :: ((String.join (items.map fun s =>
        "    " ++ Quoted.quote s ++ ",\n")).toList ++ ']' :: rest)) =
      some (items.map .string, rest) := by
  induction items generalizing fuel with
  | nil =>
    cases fuel with
    | zero => exact absurd hfuel (Nat.not_lt_zero _)
    | succ fuel => rfl
  | cons s items ih =>
    obtain ⟨fuel, rfl⟩ : ∃ k, fuel = k + 2 := ⟨fuel - 2, by simp at hfuel; omega⟩
    have hlength : items.length < fuel + 1 := by simpa using hfuel
    have hitems := ih hlength
    rw [List.map_cons, String.join_cons, String.toList_append, String.toList_append,
      String.toList_append]
    generalize (String.join (items.map fun s => "    " ++ Quoted.quote s ++ ",\n")).toList = more
      at hitems
    have hskip : skipLines false ('\n' :: (("    ".toList ++ (Quoted.quote s).toList ++
        ",\n".toList ++ more) ++ ']' :: rest)) =
        (Quoted.quote s).toList ++ ',' :: '\n' :: (more ++ ']' :: rest) := by
      have hindent : ∀ cs, skipLines false ('\n' :: ("    ".toList ++ cs)) = skipLines false cs :=
        fun _ => rfl
      have hcomma : ∀ cs, ",\n".toList ++ cs = ',' :: '\n' :: cs := fun _ => rfl
      rw [List.append_assoc, List.append_assoc, List.append_assoc, hindent, hcomma,
        skipLines_quote]
    rw [readItems_quote fuel depth hskip (stops_cons.2 rfl)]
    show (readItems (fuel + 1) depth _).bind _ = _
    rw [hitems]
    rfl

/-- What starts neither a list nor an inline table nor a string is read as a scalar. -/
theorem readValueWithin_scalar {cs : List Char} (fuel depth : Nat)
    (h : ∀ c ∈ cs.head?, c ≠ '[' ∧ c ≠ '{' ∧ c ≠ '"' ∧ c ≠ '\'') :
    readValueWithin (fuel + 1) depth cs = readScalar cs := by
  unfold readValueWithin
  split
  · exact absurd rfl (h _ rfl).1
  · exact absurd rfl (h _ rfl).2.1
  · exact absurd rfl (h _ rfl).2.2.1
  · exact absurd rfl (h _ rfl).2.2.2
  · rfl

/-- Whether a value is within the bounds of the format. -/
def Plain.fits : Plain → Bool
  | .number n => n < 0x8000000000000000
  | _ => true

/-- A written list is read back. -/
theorem readValueWithin_texts {fuel : Nat} (items : List String) (hfuel : items.length < fuel)
    (depth : Nat) (rest : List Char) :
    readValueWithin (fuel + 1) (depth + 1) ((Plain.texts items).render.toList ++ rest) =
      some (.list (items.map .string), rest) := by
  match items with
  | [] =>
    cases fuel with
    | zero => exact absurd hfuel (Nat.not_lt_zero _)
    | succ fuel => rfl
  | [s] =>
    obtain ⟨fuel, rfl⟩ : ∃ k, fuel = k + 2 := ⟨fuel - 2, by simp at hfuel; omega⟩
    have hbracket : Stops (fun c => c == '"' || c == '\'') (']' :: rest) := stops_cons.2 rfl
    have hread := readItems_quote fuel depth (skipLines_quote s _) hbracket
    have hrender : (Plain.texts [s]).render.toList ++ rest =
        '[' :: ((Quoted.quote s).toList ++ ']' :: rest) := by
      simp [Plain.render]
    rw [hrender]
    show (readItems (fuel + 2) depth _).map _ = _
    rw [hread]
    rfl
  | s :: t :: items =>
    have hread := readItems_quotes (s :: t :: items) hfuel depth rest
    have hrender : (Plain.texts (s :: t :: items)).render.toList ++ rest =
        '[' :: '\n' :: ((String.join ((s :: t :: items).map fun s =>
          "    " ++ Quoted.quote s ++ ",\n")).toList ++ ']' :: rest) := by
      rw [Plain.render, String.toList_append, String.toList_append, List.append_assoc,
        List.append_assoc]
      · rfl
      · exact nofun
      · exact nofun
    rw [hrender]
    show (readItems fuel depth _).map _ = _
    rw [hread]
    rfl

/-- A written list has more characters than items. -/
theorem length_lt_length_render (items : List String) :
    items.length < (Plain.texts items).render.toList.length := by
  match items with
  | [] => decide
  | [s] => simp [Plain.render]
  | s :: t :: items =>
    rw [Plain.render]
    · have hjoin : ∀ l : List String, l.length ≤
          (String.join (l.map fun s => "    " ++ Quoted.quote s ++ ",\n")).toList.length := by
        intro l
        induction l with
        | nil => exact Nat.le_refl 0
        | cons s l ih =>
          rw [List.map_cons, String.join_cons, String.toList_append, List.length_append]
          simp at ih ⊢
          omega
      have h := hjoin (s :: t :: items)
      rw [String.toList_append, String.toList_append, List.length_append, List.length_append]
      simp at h ⊢
      omega
    · exact nofun
    · exact nofun

/-- A written value at the end of a line is read back. -/
theorem readValue_render {v : Plain} (hv : v.fits) (rest : List Char) :
    readValue (v.render.toList ++ '\n' :: rest) = some (v.toData, '\n' :: rest) := by
  unfold readValue
  cases v with
  | text s => exact readValueWithin_quote _ _ s (stops_cons.2 rfl)
  | number n =>
    have hdigits : ∀ c ∈ Nat.toDigits 10 n, c.isDigit := fun _ => Net.isDigit_of_mem_toDigits_ten
    have hrender : (Plain.number n).render.toList = Nat.toDigits 10 n := Nat.toList_repr
    rw [hrender, readValueWithin_scalar, readScalar_number (of_decide_eq_true hv)]
    · rfl
    · intro c hc
      rw [List.head?_append, List.head?_eq_some_head Nat.toDigits_ne_nil] at hc
      have hc : c ∈ Nat.toDigits 10 n := Option.some.inj hc ▸ List.head_mem _
      exact ⟨ne_of_isDigit (hdigits c hc) rfl, ne_of_isDigit (hdigits c hc) rfl,
        ne_of_isDigit (hdigits c hc) rfl, ne_of_isDigit (hdigits c hc) rfl⟩
  | truth b =>
    have hread := readScalar_truth b ('\n' :: rest)
    have hrender : (Plain.truth b).render.toList = (if b then "true" else "false").toList := rfl
    rw [hrender, readValueWithin_scalar, hread]
    · rfl
    · cases b <;> exact fun c hc => Option.some.inj hc ▸ by decide
  | texts items =>
    refine readValueWithin_texts items ?_ 78 _
    have hlength := length_lt_length_render items
    rw [List.length_append]
    omega

/-! ## Lines -/

/-- No blank starts a written value. -/
theorem stops_render (v : Plain) (rest : List Char) :
    Stops isInlineBlank (v.render.toList ++ rest) := by
  cases v with
  | text s =>
    obtain ⟨q, cs, hs, hq⟩ := exists_cons_of_quote s
    rw [show (Plain.text s).render = Quoted.quote s from rfl, hs]
    rcases hq with rfl | rfl <;> exact stops_cons.2 rfl
  | number n =>
    have hrender : (Plain.number n).render.toList = Nat.toDigits 10 n := Nat.toList_repr
    intro c hc
    rw [hrender, List.head?_append, List.head?_eq_some_head Nat.toDigits_ne_nil] at hc
    have hc : c ∈ Nat.toDigits 10 n := Option.some.inj hc ▸ List.head_mem _
    have hdigit := Net.isDigit_of_mem_toDigits_ten hc
    exact Bool.or_eq_false_iff.2 ⟨beq_eq_false_iff_ne.2 (ne_of_isDigit hdigit rfl),
      beq_eq_false_iff_ne.2 (ne_of_isDigit hdigit rfl)⟩
  | truth b => cases b <;> exact stops_cons.2 rfl
  | texts items =>
    match items with
    | [] => exact stops_cons.2 rfl
    | [s] =>
      rw [Plain.render, String.toList_append, String.toList_append]
      exact stops_cons.2 rfl
    | s :: t :: items =>
      rw [Plain.render, String.toList_append, String.toList_append]
      · exact stops_cons.2 rfl
      · exact nofun
      · exact nofun

/-- A written pair is read up to the end of its line. -/
theorem readPair_render {key : String} {v : Plain} (hkey : isBareText key) (hv : v.fits)
    (rest : List Char) :
    readPair ((renderPair (key, v)).toList ++ rest) = some (⟨[], key⟩, v.toData, rest) := by
  have hbare : (⟨[], key⟩ : Key).isBare := by
    simp [Key.isBare, hkey]
  have hrender : (renderPair (key, v)).toList ++ rest =
      (⟨[], key⟩ : Key).render.toList ++
        ' ' :: '=' :: ' ' :: (v.render.toList ++ '\n' :: rest) := by
    simp [renderPair, Key.render]
  have hblank : Stops isBare (' ' :: '=' :: ' ' :: (v.render.toList ++ '\n' :: rest)) :=
    stops_cons.2 rfl
  have hread := readKey_render hbare hblank (by simp [skipBlanks, isInlineBlank])
  have hequals : readKeyEquals ((renderPair (key, v)).toList ++ rest) =
      some (⟨[], key⟩, ' ' :: (v.render.toList ++ '\n' :: rest)) := by
    rw [hrender, readKeyEquals, hread]
    rfl
  have hblank : skipBlanks (' ' :: (v.render.toList ++ '\n' :: rest)) =
      v.render.toList ++ '\n' :: rest :=
    skipBlanks_of_stops (stops_render v _)
  rw [readPair, hequals, Option.bind_eq_bind, Option.bind_some]
  dsimp only
  rw [hblank, readValue_render hv]
  rfl

/-- The key of a header. -/
def Header.key : Header → Key
  | .table key => key
  | .element key => key

/-- A written header is read up to the end of its line. -/
theorem readHeader_render {h : Header} (hkey : h.key.isBare) (rest : List Char) :
    readHeader (h.render.toList ++ rest) = some (h, rest) := by
  cases h with
  | table key =>
    have hkey : key.isBare := hkey
    have hbracket : Stops isBare (']' :: '\n' :: rest) := stops_cons.2 rfl
    have hread := readKey_render hkey hbracket (by simp [skipBlanks, isInlineBlank])
    have hrender : (Header.table key).render.toList ++ rest =
        '[' :: (key.render.toList ++ ']' :: '\n' :: rest) := by
      simp [Header.render]
    rw [hrender, readHeader, hread]
    · rfl
    · intro tail h
      obtain ⟨c, cs, hc, hbare⟩ := exists_cons_of_isBare hkey
      rw [hc] at h
      exact absurd (List.cons.inj h).1 (ne_of_isBare hbare rfl)
  | element key =>
    have hkey : key.isBare := hkey
    have hbracket : Stops isBare (']' :: ']' :: '\n' :: rest) := stops_cons.2 rfl
    have hread := readKey_render hkey hbracket (by simp [skipBlanks, isInlineBlank])
    have hrender : (Header.element key).render.toList ++ rest =
        '[' :: '[' :: (key.render.toList ++ ']' :: ']' :: '\n' :: rest) := by
      simp [Header.render]
    rw [hrender, readHeader, hread]
    rfl

/-- The text is read as the lines, with any number of steps that suffices for its length. -/
def ReadsAs (cs : List Char) (lines : List Line) : Prop :=
  ∀ limit, cs.length < limit → readLines limit cs = some lines

namespace ReadsAs

variable {lines : List Line}

/-- The empty text has no lines. -/
theorem nil : ReadsAs [] [] := by
  intro limit hlimit
  cases limit with
  | zero => cases hlimit
  | succ limit => rfl

/-- An empty line says nothing. -/
theorem blank (h : ReadsAs rest lines) : ReadsAs ('\n' :: rest) lines := by
  intro limit hlimit
  cases limit with
  | zero => cases hlimit
  | succ limit => exact h limit (Nat.lt_of_succ_lt_succ hlimit)

/-- A written pair is a line. -/
theorem pair {key : String} {v : Plain} (hkey : isBareText key) (hv : v.fits)
    (h : ReadsAs rest lines) :
    ReadsAs ((renderPair (key, v)).toList ++ rest) (.pair ⟨[], key⟩ v.toData :: lines) := by
  intro limit hlimit
  have hread := readPair_render hkey hv rest
  have hshorter : rest.length < ((renderPair (key, v)).toList ++ rest).length := by
    simp [renderPair]
    omega
  obtain ⟨c, cs, hc, hbare, -⟩ := exists_cons_of_isBareText hkey
  have hcons : ∃ tail, (renderPair (key, v)).toList ++ rest = c :: tail := by
    rw [renderPair, String.toList_append, String.toList_append, String.toList_append, hc]
    exact ⟨_, rfl⟩
  obtain ⟨tail, htail⟩ := hcons
  rw [htail] at hread hshorter hlimit ⊢
  cases limit with
  | zero => cases hlimit
  | succ limit =>
    have hblank : skipBlanks (c :: tail) = c :: tail :=
      skipBlanks_of_stops (stops_cons.2 (isInlineBlank_of_isBare hbare))
    have hother : (c == '#' || c == '\n' || c == '\r') = false := by
      simp [ne_of_isBare hbare (d := '#') rfl, ne_of_isBare hbare (d := '\n') rfl,
        ne_of_isBare hbare (d := '\r') rfl]
    rw [readLines, hblank]
    split
    · next heq => cases heq
    · next heq => exact absurd (List.cons.inj heq).1 (ne_of_isBare hbare rfl)
    · next heq =>
      cases heq
      rw [hother, hread]
      show (readLines limit rest).bind _ = _
      rw [h limit (by omega)]
      rfl

/-- A written header is a line. -/
theorem header {head : Header} (hkey : head.key.isBare) (h : ReadsAs rest lines) :
    ReadsAs (head.render.toList ++ rest) (.header head :: lines) := by
  intro limit hlimit
  have hread := readHeader_render hkey rest
  have hshorter : rest.length < (head.render.toList ++ rest).length := by
    cases head <;> simp [Header.render] <;> omega
  have hcons : ∃ tail, head.render.toList ++ rest = '[' :: tail := by
    cases head <;> rw [Header.render, String.toList_append, String.toList_append] <;> exact ⟨_, rfl⟩
  obtain ⟨tail, htail⟩ := hcons
  rw [htail] at hread hshorter hlimit ⊢
  cases limit with
  | zero => cases hlimit
  | succ limit =>
    have hblank : skipBlanks ('[' :: tail) = '[' :: tail :=
      skipBlanks_of_stops (stops_cons.2 rfl)
    rw [readLines, hblank]
    show (readHeader ('[' :: tail)).bind _ = _
    rw [hread]
    show (readLines limit rest).bind _ = _
    rw [h limit (by omega)]
    rfl

/-- The written pairs of a block are lines. -/
theorem pairs {ps : List (String × Plain)} (hps : ∀ p ∈ ps, isBareText p.1 ∧ p.2.fits)
    (h : ReadsAs rest lines) :
    ReadsAs ((String.join (ps.map renderPair)).toList ++ rest)
      (ps.map (fun p => .pair ⟨[], p.1⟩ p.2.toData) ++ lines) := by
  induction ps with
  | nil => exact h
  | cons p ps ih =>
    obtain ⟨hkey, hv⟩ := hps p (.head _)
    rw [List.map_cons, String.join_cons, String.toList_append, List.append_assoc]
    exact pair hkey hv (ih fun q hq => hps q (.tail _ hq))

end ReadsAs

/-- Whether a block can be written. -/
def Block.isWritable (b : Block) : Bool :=
  b.header.all (fun h => h.key.isBare) && b.pairs.all fun p => isBareText p.1 && p.2.fits

/-- The lines of a block. -/
def Block.lines (b : Block) : List Line :=
  b.header.toList.map .header ++ b.pairs.map fun p => .pair ⟨[], p.1⟩ p.2.toData

/-- A written block is its lines. -/
theorem ReadsAs.block {b : Block} {lines : List Line} (hb : b.isWritable) (h : ReadsAs rest lines) :
    ReadsAs (b.render.toList ++ rest) (b.lines ++ lines) := by
  obtain ⟨hheader, hpairs⟩ := Bool.and_eq_true_iff.1 hb
  have hps : ∀ p ∈ b.pairs, isBareText p.1 ∧ p.2.fits := fun p hp =>
    Bool.and_eq_true_iff.1 (List.all_eq_true.1 hpairs p hp)
  have hbody := ReadsAs.pairs hps h
  rw [Block.render, Block.lines, String.toList_append, List.append_assoc, List.append_assoc]
  cases hhead : b.header with
  | none => exact hbody
  | some head =>
    rw [hhead] at hheader
    exact ReadsAs.header hheader hbody

/-- A written document is the lines of its blocks. -/
theorem readsAs_renderBlocks {blocks : List Block} (h : ∀ b ∈ blocks, b.isWritable) :
    ReadsAs (renderBlocks blocks).toList (blocks.flatMap Block.lines) := by
  induction blocks with
  | nil => exact ReadsAs.nil
  | cons b blocks ih =>
    have hb := h b (.head _)
    have hblocks := ih fun c hc => h c (.tail _ hc)
    cases blocks with
    | nil =>
      have hread := ReadsAs.block hb ReadsAs.nil
      rw [List.append_nil] at hread
      rw [renderBlocks, List.map_singleton, String.intercalate_singleton, List.flatMap_cons]
      exact hread
    | cons c blocks =>
      have hread := ReadsAs.block hb hblocks.blank
      rw [renderBlocks, List.map_cons, List.map_cons, String.intercalate_cons_cons,
        String.toList_append, String.toList_append, List.append_assoc, List.flatMap_cons]
      exact hread

/-! ## Documents -/

/-- What is read as lines does not start with a byte order mark, which no line does. -/
theorem ReadsAs.ne_byteOrderMark {cs : List Char} {lines : List Line} (h : ReadsAs cs lines)
    (tail : List Char) : cs ≠ '\ufeff' :: tail := by
  rintro rfl
  have hread := h _ (Nat.lt_succ_self _)
  have hnone : readLines (('\ufeff' :: tail).length + 1) ('\ufeff' :: tail) = none := rfl
  rw [hnone] at hread
  cases hread

/-- The pairs of a block as data. -/
def Block.data (b : Block) : List (Key × Data) :=
  b.pairs.map fun p => (⟨[], p.1⟩, p.2.toData)

/-- The section that a block with a header is. -/
def Block.section? (b : Block) : Option Section :=
  b.header.map fun header => ⟨header, b.data⟩

/-- Pairs belong to the section that is open. -/
theorem Document.ofLines_pairs (ps : List (String × Plain)) (lines : List Line) :
    Document.ofLines (ps.map (fun p => .pair ⟨[], p.1⟩ p.2.toData) ++ lines) =
      ⟨ps.map (fun p => (⟨[], p.1⟩, p.2.toData)) ++ (Document.ofLines lines).root,
        (Document.ofLines lines).sections⟩ := by
  induction ps with
  | nil => rfl
  | cons p ps ih => rw [List.map_cons, List.cons_append, Document.ofLines, ih]; rfl

/-- Blocks with headers make up the sections of a document. -/
theorem Document.ofLines_blocks {blocks : List Block} (h : ∀ b ∈ blocks, b.header.isSome) :
    Document.ofLines (blocks.flatMap Block.lines) = ⟨[], blocks.filterMap Block.section?⟩ := by
  induction blocks with
  | nil => rfl
  | cons b blocks ih =>
    have hblocks := ih fun c hc => h c (.tail _ hc)
    obtain ⟨header, hheader⟩ := Option.isSome_iff_exists.1 (h b (.head _))
    have hsection : b.section? = some ⟨header, b.data⟩ := by
      rw [Block.section?, hheader]
      rfl
    have hlines : b.lines = .header header :: b.pairs.map fun p => .pair ⟨[], p.1⟩ p.2.toData := by
      rw [Block.lines, hheader]
      rfl
    rw [List.flatMap_cons, hlines, List.cons_append, Document.ofLines, Document.ofLines_pairs,
      hblocks, List.filterMap_cons_some hsection]
    simp [Block.data]

/-- **A written document is the document of its blocks.** -/
theorem parse?_renderBlocks {blocks : List Block} (hblocks : ∀ b ∈ blocks, b.isWritable)
    (hheaders : ∀ b ∈ blocks, b.header.isSome) :
    parse? (renderBlocks blocks) = Document.toData? ⟨[], blocks.filterMap Block.section?⟩ := by
  have hread := readsAs_renderBlocks hblocks
  have hdocument : Document.read? (renderBlocks blocks).toList =
      some ⟨[], blocks.filterMap Block.section?⟩ := by
    unfold Document.read?
    split
    · next heq => exact absurd heq (hread.ne_byteOrderMark _)
    · dsimp only
      rw [hread _ (Nat.lt_add_one _), Option.map_some, Document.ofLines_blocks hheaders]
  rw [parse?, hdocument, Option.bind_some]

end ReactorDeploy.Toml
