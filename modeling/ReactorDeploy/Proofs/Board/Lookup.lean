import ReactorDeploy.Board
import ReactorDeploy.Proofs.Text.Spelling
import Mathlib.Data.List.Forall2

/-!
# Looking up a board

A table of boards is built one entry at a time (`Built`), and what it says about a board depends on
the entries alone (`configFor?_of_built`): it has something for the board just if some entry names
it, and that is then what all the entries with its name say, in the order in which they were made.
Neither the table nor the board that is asked for is seen to be spelled one way or another
(`Listing.Respelled.entry_eq`).
-/

namespace ReactorDeploy.Board

open Config.Fragment (flag)
open Text (Respelling)

/-! ## Tables -/

/-- What an entry is made from: the names of some boards in any spelling, and what the boards
need. -/
structure Listing where
  names : List String
  fragment : Config.Fragment

/-- The entry that is made from a listing. -/
def Listing.entry (l : Listing) : Entry :=
  ⟨l.names.map canonicalName, l.fragment⟩

/-- A table is built from the listings, one after the other: from none at first, or from the one of
the boards known from the start. -/
inductive Built : List Listing → Table → Prop
  | empty : Built [] []
  | builtin : Built [⟨picoBoards, picoFragment⟩] builtin
  | withEntry {ls : List Listing} {t : Table} (l : Listing) :
      Built ls t → Built (ls ++ [l]) (t.withEntry l.names l.fragment)

/-- A table consists of the entries of its listings. -/
theorem Built.eq_map {ls : List Listing} {t : Table} (h : Built ls t) :
    t = ls.map Listing.entry := by
  induction h with
  | empty => rfl
  | builtin => rfl
  | withEntry l _ ih => rw [ih, List.map_append]; rfl

/-! ## Names -/

/-- A listing has the name that is asked for, in some spelling: the two are the same text, trimmed
and in lower case. -/
def Listing.Names (l : Listing) (query : String) : Prop :=
  ∃ name ∈ l.names, Text.lowercase (Text.trim name) = Text.lowercase (Text.trim query)

instance (l : Listing) (query : String) : Decidable (l.Names query) :=
  inferInstanceAs (Decidable (∃ name ∈ l.names, _ = _))

/-- The entry of a listing is found under the names of the listing. -/
theorem Listing.contains_entry_iff {l : Listing} {query : String} :
    l.entry.boards.contains (canonicalName query) = true ↔ l.Names query := by
  rw [List.contains_iff_mem, entry, List.mem_map]
  rfl

/-- Two listings of the same, with the names spelled in two ways. -/
structure Listing.Respelled (l l' : Listing) : Prop where
  names : l.names.Forall₂ Respelling l'.names
  fragment_eq : l.fragment = l'.fragment

/-- The entry does not show how the names of a listing were spelled. -/
theorem Listing.Respelled.entry_eq {l l' : Listing} (h : l.Respelled l') : l.entry = l'.entry := by
  have hnames : List.Forall₂ Eq (l.names.map canonicalName) (l'.names.map canonicalName) :=
    List.forall₂_map_left_iff.2 (List.forall₂_map_right_iff.2
      (h.names.imp fun _ _ => Respelling.lowercase_trim_eq))
  rw [List.forall₂_eq_eq_eq] at hnames
  rw [entry, entry, hnames, h.fragment_eq]

/-- A table does not show how the names of its listings were spelled. -/
theorem Built.eq_of_respelled {ls ls' : List Listing} {t t' : Table} (h : Built ls t)
    (h' : Built ls' t') (hls : ls.Forall₂ Listing.Respelled ls') : t = t' := by
  have hentries : List.Forall₂ Eq (ls.map Listing.entry) (ls'.map Listing.entry) :=
    List.forall₂_map_left_iff.2 (List.forall₂_map_right_iff.2
      (hls.imp fun _ _ => Listing.Respelled.entry_eq))
  rw [List.forall₂_eq_eq_eq] at hentries
  rw [h.eq_map, h'.eq_map, hentries]

/-! ## Look-up -/

/-- What a table says about a board, by its listings. -/
theorem Built.configFor?_some {ls : List Listing} {t : Table} (h : Built ls t) (query : String) :
    t.configFor? (some query) =
      if ls.filter (·.Names query) = [] then none
      else some ((ls.filter (·.Names query)).flatMap Listing.fragment) := by
  have hfound : t.filter (fun e => e.boards.contains (canonicalName query)) =
      (ls.filter (·.Names query)).map Listing.entry := by
    rw [h.eq_map, List.filter_map]
    refine congrArg _ (List.filter_congr fun l _ => ?_)
    rw [Function.comp_apply, Bool.eq_iff_iff, Listing.contains_entry_iff, decide_eq_true_iff]
  show (if (t.filter fun e => e.boards.contains (canonicalName query)).isEmpty then none else _) = _
  rw [hfound, List.flatMap_map, List.isEmpty_map]
  simp only [List.isEmpty_iff]
  rfl

/-- A board is asked for by its canonical name only. -/
theorem configFor?_congr (t : Table) {query query' : Option String}
    (h : Option.Rel Respelling query query') : t.configFor? query = t.configFor? query' := by
  cases h with
  | none => rfl
  | some hname =>
    have hcanonical : canonicalName _ = canonicalName _ := hname.lowercase_trim_eq
    unfold Table.configFor?
    simp only [Option.bind_eq_bind, Option.bind_some, hcanonical]

/-- A table has nothing for a board just if no board is asked for, or no listing has its name. For a
board that some listing names, it has what all the listings with that name say, one after the
other. It has the same for the board in any spelling, and so does the table with its names spelled in
any way. -/
theorem configFor?_of_built {ls : List Listing} {t : Table} (h : Built ls t)
    (query : Option String) :
    (t.configFor? query = none ↔ ∀ name, query = some name → ∀ l ∈ ls, ¬ l.Names name) ∧
      (∀ name, query = some name → (∃ l ∈ ls, l.Names name) →
        t.configFor? query = some ((ls.filter (·.Names name)).flatMap Listing.fragment)) ∧
      (∀ ls' t' query', Built ls' t' → ls.Forall₂ Listing.Respelled ls' →
        Option.Rel Respelling query query' → t'.configFor? query' = t.configFor? query) := by
  have hnone : ∀ name, ls.filter (·.Names name) = [] ↔ ∀ l ∈ ls, ¬ l.Names name := by
    intro name
    simp only [List.filter_eq_nil_iff, decide_eq_true_eq]
  refine ⟨?_, ?_, ?_⟩
  · cases query with
    | none => simp [Table.configFor?]
    | some name =>
      refine ⟨fun hnothing => ?_, fun hall => ?_⟩
      · rintro _ ⟨⟩
        by_contra hnames
        rw [h.configFor?_some, if_neg (mt (hnone name).1 hnames)] at hnothing
        cases hnothing
      · rw [h.configFor?_some, if_pos ((hnone name).2 (hall name rfl))]
  · rintro name rfl ⟨l, hl, hname⟩
    have hfound : ls.filter (·.Names name) ≠ [] := fun hnil => (hnone name).1 hnil l hl hname
    rw [h.configFor?_some, if_neg hfound]
  · intro ls' t' query' h' hls hquery
    rw [← h.eq_of_respelled h' hls, configFor?_congr t hquery]

/-- A board of the family of the Pico with a listing of its own besides gets what both say, however
its name is spelled here and there. -/
theorem configFor?_pico_w :
    (Table.withEntry builtin [" RPI_PICO_W", "ΑΣ"] [flag "WIFI" true]).configFor?
        (some "Rpi_Pico_W") = some (picoFragment ++ [flag "WIFI" true]) ∧
      (Table.withEntry builtin [" RPI_PICO_W", "ΑΣ"] [flag "WIFI" true]).configFor?
        (some "Rpi Pico W") = none ∧
      (Table.withEntry builtin ["rpi_pico_w", "ΑΣ"] [flag "WIFI" true]).configFor?
        (some " RPI_PICO_W") =
        (Table.withEntry builtin [" RPI_PICO_W", "ΑΣ"] [flag "WIFI" true]).configFor?
          (some "Rpi_Pico_W") := by
  have hbuilt := Built.builtin.withEntry ⟨[" RPI_PICO_W", "ΑΣ"], [flag "WIFI" true]⟩
  have hpadded : Respelling "RPI_PICO_W" " RPI_PICO_W" :=
    .padded " " "RPI_PICO_W" "" (List.all_eq_true.1 (by decide)) (List.all_eq_true.1 (by decide))
  have hsmall : Respelling "RPI_PICO_W" "rpi_pico_w" := .recased _ _ (by decide)
  have hmixed : Respelling "Rpi_Pico_W" "RPI_PICO_W" := .recased _ _ (by decide)
  refine ⟨?_, ?_, ?_⟩
  · obtain ⟨-, hfound, -⟩ := configFor?_of_built hbuilt (some "Rpi_Pico_W")
    rw [hfound _ rfl (by decide +kernel)]
    decide +kernel
  · obtain ⟨hnothing, -, -⟩ := configFor?_of_built hbuilt (some "Rpi Pico W")
    refine hnothing.2 ?_
    rintro _ ⟨⟩
    decide +kernel
  · obtain ⟨-, -, hrespelled⟩ := configFor?_of_built hbuilt (some "Rpi_Pico_W")
    have hsame : ∀ s, Respelling s s := fun s => .recased s s rfl
    refine hrespelled _ _ _ (Built.builtin.withEntry ⟨["rpi_pico_w", "ΑΣ"], [flag "WIFI" true]⟩)
      (.cons ⟨List.forall₂_same.2 fun name _ => hsame name, rfl⟩ (.cons ⟨?_, rfl⟩ .nil))
      (.some (hmixed.trans hpadded))
    exact .cons (hpadded.symm.trans hsmall) (.cons (hsame _) .nil)

end ReactorDeploy.Board
