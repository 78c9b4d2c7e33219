import ReactorDeploy.Proofs.Toml.Reader

/-!
# The tables of written documents

What the sections of a written document build. Such a document has no dotted keys and no key twice,
so that its pairs are the entries of their table (`addPairs_data`), a table is added behind what is
there (`addSection_table`), and the tables under a repeated header come one after the other
(`addSection_element`). A section below a series is a section of the latest table of that series
(`addSection_under`).
-/

namespace ReactorDeploy.Toml

/-- The entries of the table that a block opens. -/
def Block.entries (b : Block) : Entries :=
  b.pairs.map fun p => (p.1, .value p.2.toData)

/-- Whether no key stands twice in a block. -/
def Block.isSimple (b : Block) : Bool :=
  (b.pairs.map Prod.fst).Nodup

/-- Values of a list of pairs are looked up before or after they are mapped. -/
theorem lookup_map {α β : Type} (f : α → β) (l : List (String × α)) (key : String) :
    (l.map fun p => (p.1, f p.2)).lookup key = (l.lookup key).map f := by
  induction l with
  | nil => rfl
  | cons p l ih =>
    rw [List.map_cons, List.lookup_cons, List.lookup_cons, ih]
    split <;> rfl

namespace Entries

variable {es : Entries} {key : String}

/-! ## Keys of a table -/

/-- A key is not put among entries that do not have it. -/
theorem put_append (h : es.lookup key = none) (rest : Entries) (node : Node) :
    put (es ++ rest) key node = es ++ rest.put key node := by
  induction es with
  | nil => rfl
  | cons e es ih =>
    obtain ⟨k, n⟩ := e
    rw [List.lookup_cons] at h
    split at h
    · cases h
    · next hne =>
      have hk : k ≠ key := fun heq => by simp [heq] at hne
      rw [List.cons_append, put, if_neg hk, ih h, List.cons_append]

/-- A new key goes behind the others. -/
theorem put_of_lookup (h : es.lookup key = none) (node : Node) :
    es.put key node = es ++ [(key, node)] := by
  have hput := put_append h [] node
  rw [List.append_nil] at hput
  exact hput

/-- The last key keeps its place. -/
theorem put_last (h : es.lookup key = none) (old node : Node) :
    put (es ++ [(key, old)]) key node = es ++ [(key, node)] := by
  rw [put_append h, put, if_pos rfl]

/-- The last key is found behind others. -/
theorem lookup_last (h : es.lookup key = none) (node : Node) :
    (es ++ [(key, node)]).lookup key = some node := by
  rw [List.lookup_append, h, Option.none_or, List.lookup_cons_self]

/-- Steps that add a new key each add all of them, in order. -/
theorem foldlM_new {α : Type} {step : Entries → α → Option Entries} {key : α → String}
    {node : α → Node} {l : List α} {es : Entries}
    (hstep : ∀ a ∈ l, ∀ es : Entries, es.lookup (key a) = none →
      step es a = some (es ++ [(key a, node a)]))
    (hnodup : (l.map key).Nodup) (hnew : ∀ a ∈ l, es.lookup (key a) = none) :
    l.foldlM step es = some (es ++ l.map fun a => (key a, node a)) := by
  induction l generalizing es with
  | nil => exact congrArg some (List.append_nil es).symm
  | cons a l ih =>
    obtain ⟨ha, hl⟩ := List.nodup_cons.1 hnodup
    have hlater : ∀ b ∈ l, (es ++ [(key a, node a)]).lookup (key b) = none := by
      intro b hb
      have hne : key b ≠ key a := fun heq => ha (heq ▸ List.mem_map_of_mem hb)
      rw [List.lookup_append, hnew b (.tail _ hb), Option.none_or, List.lookup_cons,
        beq_eq_false_iff_ne.2 hne]
      rfl
    have hrest := ih (fun b hb => hstep b (.tail _ hb)) hl hlater
    rw [List.append_assoc] at hrest
    rw [List.foldlM_cons, hstep a (.head _) es (hnew a (.head _))]
    exact hrest

/-! ## Pairs -/

/-- A pair without dots adds an entry. -/
theorem addPair_of_lookup (h : es.lookup key = none) (d : Data) :
    es.addPair [] key d = some (es ++ [(key, .value d)]) := by
  simp [addPair, updateAt, h]

/-- The pairs of a block are the entries of its table. -/
theorem addPairs_data {b : Block} (h : b.isSimple) : addPairs [] b.data = some b.entries := by
  rw [addPairs, Block.data, List.foldlM_map]
  exact foldlM_new (fun p _ es hes => addPair_of_lookup hes p.2.toData) (of_decide_eq_true h)
    fun _ _ => rfl

/-! ## Sections -/

/-- A table with a new name goes behind the others. -/
theorem addSection_table (h : es.lookup key = none) {b : Block} (hb : b.isSimple) :
    es.addSection ⟨.table ⟨[], key⟩, b.data⟩ = some (es ++ [(key, .table .header b.entries)]) := by
  simp [addSection, updateAt, h, addPairs_data hb, put_of_lookup h]

/-- Tables with new names go behind the others, in order. -/
theorem addSections_tables {blocks : List (String × Block)}
    (hsimple : ∀ b ∈ blocks, b.2.isSimple) (hnodup : (blocks.map Prod.fst).Nodup) :
    (blocks.map fun b => (⟨.table ⟨[], b.1⟩, b.2.data⟩ : Section)).foldlM addSection [] =
      some (blocks.map fun b => (b.1, .table .header b.2.entries)) := by
  rw [List.foldlM_map]
  exact foldlM_new (fun b hb es hes => addSection_table hes (hsimple b hb)) hnodup fun _ _ => rfl

/-- The entry of the tables under a repeated header, if there are any yet. -/
def seriesEntry (key : String) (tables : List Entries) : Entries :=
  if tables.isEmpty then [] else [(key, .series tables)]

/-- One more table under a repeated header comes behind the others. -/
theorem addSection_element (h : es.lookup key = none) {b : Block} (hb : b.isSimple)
    (tables : List Entries) :
    addSection (es ++ seriesEntry key tables) ⟨.element ⟨[], key⟩, b.data⟩ =
      some (es ++ seriesEntry key (tables ++ [b.entries])) := by
  cases tables with
  | nil => simp [seriesEntry, addSection, updateAt, h, addPairs_data hb, put_of_lookup h]
  | cons t ts =>
    have hlookup := lookup_last h (.series (t :: ts))
    simp [seriesEntry, addSection, updateAt, hlookup, addPairs_data hb, put_last h]

/-- The tables of blocks under one repeated header. -/
theorem addSections_elements (h : es.lookup key = none) {blocks : List Block}
    (hblocks : ∀ b ∈ blocks, b.isSimple) (tables : List Entries) :
    (blocks.map fun b => (⟨.element ⟨[], key⟩, b.data⟩ : Section)).foldlM addSection
        (es ++ seriesEntry key tables) =
      some (es ++ seriesEntry key (tables ++ blocks.map Block.entries)) := by
  induction blocks generalizing tables with
  | nil => simp
  | cons b blocks ih =>
    have hadd := addSection_element h (hblocks b (.head _)) tables
    have hrest := ih (fun c hc => hblocks c (.tail _ hc)) (tables ++ [b.entries])
    rw [List.append_assoc] at hrest
    rw [List.map_cons, List.foldlM_cons, hadd]
    exact hrest

end Entries

/-- The header with one more parent in front. -/
def Header.under (parent : String) : Header → Header
  | .table key => .table { key with parents := parent :: key.parents }
  | .element key => .element { key with parents := parent :: key.parents }

/-- The section with one more parent in front. -/
def Section.under (parent : String) (s : Section) : Section :=
  { s with header := s.header.under parent }

namespace Entries

variable {es : Entries} {key : String}

/-- A section below a series is a section of its latest table. -/
theorem addSection_under (h : es.lookup key = none) (tables : List Entries) (t : Entries)
    (s : Section) :
    addSection (es ++ [(key, .series (tables ++ [t]))]) (s.under key) =
      (t.addSection s).map fun t => es ++ [(key, .series (tables ++ [t]))] := by
  have hupdate : ∀ (f : Origin → Entries → Option Entries) (path : List String),
      updateAt .parent f (key :: path) .header (es ++ [(key, .series (tables ++ [t]))]) =
        (updateAt .parent f path .header t).map fun t =>
          es ++ [(key, .series (tables ++ [t]))] := by
    intro f path
    rw [updateAt, lookup_last h]
    dsimp only
    rw [List.getLast?_concat, List.dropLast_concat, Option.bind_eq_bind, Option.bind_some]
    cases updateAt .parent f path .header t with
    | none => rfl
    | some u =>
      rw [Option.bind_some, put_last h]
      rfl
  obtain ⟨header, pairs⟩ := s
  cases header with
  | table k => exact hupdate _ _
  | element k => exact hupdate _ _

/-- Sections below a series are sections of its latest table. -/
theorem addSections_under (h : es.lookup key = none) (tables : List Entries) (t : Entries)
    (ss : List Section) :
    (ss.map (Section.under key)).foldlM addSection (es ++ [(key, .series (tables ++ [t]))]) =
      (ss.foldlM addSection t).map fun t => es ++ [(key, .series (tables ++ [t]))] := by
  induction ss generalizing t with
  | nil => rfl
  | cons s ss ih =>
    rw [List.map_cons, List.foldlM_cons, List.foldlM_cons, addSection_under h]
    cases t.addSection s with
    | none => rfl
    | some u => exact ih u

/-! ## Data -/

/-- The data of entries, one by one. -/
theorem toData_eq_map (es : Entries) : toData es = es.map fun e => (e.1, e.2.toData) := by
  induction es with
  | nil => rfl
  | cons e es ih => rw [toData, ih]; rfl

/-- The data of tables, one by one. -/
theorem seriesToData_eq_map (tables : List Entries) :
    seriesToData tables = tables.map fun es => .table (toData es) := by
  induction tables with
  | nil => rfl
  | cons es tables ih => rw [seriesToData, ih]; rfl

/-- Data is looked up under the same keys. -/
theorem lookup_toData (es : Entries) (key : String) :
    (toData es).lookup key = (es.lookup key).map Node.toData := by
  rw [toData_eq_map, lookup_map]

end Entries

end ReactorDeploy.Toml
