import ReactorDeploy.Proofs.Toml.Table

/-!
# What documents hold

TOML has no null, and its integers fit 64 bits with a sign. No reader gives a value outside of these
bounds (`ReadIsToml.all`), and the table that a document builds holds nothing but what its lines
hold, so that a text has no other data either (`parse?_isToml`).
-/

namespace ReactorDeploy

/-- Data that TOML can hold: it has no null, and its integers fit 64 bits with a sign. -/
inductive Data.IsToml : Data → Prop
  | boolean (b : Bool) : IsToml (.boolean b)
  | integer {n : Int} (hlow : -0x8000000000000000 ≤ n) (hhigh : n < 0x8000000000000000) :
      IsToml (.integer n)
  | float : IsToml .float
  | dateTime : IsToml .dateTime
  | string (s : String) : IsToml (.string s)
  | list {items : List Data} (h : ∀ d ∈ items, IsToml d) : IsToml (.list items)
  | table {entries : List (String × Data)} (h : ∀ e ∈ entries, IsToml e.2) :
      IsToml (.table entries)

namespace Toml

/-- A node whose values TOML can hold. -/
inductive Node.IsToml : Node → Prop
  | value {d : Data} (h : d.IsToml) : IsToml (.value d)
  | table {origin : Origin} {es : List (String × Node)} (h : ∀ e ∈ es, IsToml e.2) :
      IsToml (.table origin es)
  | series {tables : List (List (String × Node))} (h : ∀ es ∈ tables, ∀ e ∈ es, IsToml e.2) :
      IsToml (.series tables)

/-- Entries whose values TOML can hold. -/
def Entries.IsToml (es : Entries) : Prop :=
  ∀ e ∈ es, e.2.IsToml

/-- Pairs whose values TOML can hold. -/
abbrev ArePairs (pairs : List (Key × Data)) : Prop :=
  ∀ p ∈ pairs, p.2.IsToml

/-! ## Tables under construction -/

/-- Steps that preserve a property preserve it together. -/
theorem foldlM_preserves {α β : Type} {p : β → Prop} {step : β → α → Option β} {l : List α}
    (hstep : ∀ a ∈ l, ∀ b b', p b → step b a = some b' → p b') {b b' : β} (hb : p b)
    (h : l.foldlM step b = some b') : p b' := by
  induction l generalizing b with
  | nil =>
    cases h
    exact hb
  | cons a l ih =>
    rw [List.foldlM_cons] at h
    obtain ⟨c, hc, h⟩ := Option.bind_eq_some_iff.1 h
    exact ih (fun x hx => hstep x (.tail _ hx)) (hstep a (.head _) b c hb hc) h

/-- A looked-up value stands in the list, under its key. -/
theorem mem_of_lookup {α : Type} {l : List (String × α)} {key : String} {a : α}
    (h : l.lookup key = some a) : (key, a) ∈ l := by
  obtain ⟨before, behind, rfl, -⟩ := List.lookup_eq_some_iff.1 h
  exact List.mem_append_right _ (.head _)

namespace Entries

variable {es : Entries} {key : String} {node : Node}

/-- There is nothing in no entries. -/
theorem IsToml.nil : IsToml [] :=
  nofun

/-- What is looked up is one of the entries. -/
theorem IsToml.lookup (hes : es.IsToml) (h : es.lookup key = some node) : node.IsToml :=
  hes _ (mem_of_lookup h)

/-- A node put among entries is the only new one. -/
theorem IsToml.put (hes : es.IsToml) (hnode : node.IsToml) : (es.put key node).IsToml := by
  induction es with
  | nil =>
    rintro e (_ | ⟨_, ⟨⟩⟩)
    exact hnode
  | cons e es ih =>
    obtain ⟨k, n⟩ := e
    obtain ⟨hn, hrest⟩ := List.forall_mem_cons.1 hes
    rw [Entries.put]
    split
    · exact List.forall_mem_cons.2 ⟨hnode, hrest⟩
    · exact List.forall_mem_cons.2 ⟨hn, ih hrest⟩

/-- Changing a table changes nothing else. -/
theorem IsToml.updateAt {made : Origin} {f : Origin → Entries → Option Entries}
    (hf : ∀ origin es es', IsToml es → f origin es = some es' → es'.IsToml) {path : List String}
    {origin : Origin} {es' : Entries} (hes : es.IsToml)
    (h : updateAt made f path origin es = some es') : es'.IsToml := by
  induction path generalizing origin es es' with
  | nil => exact hf origin es es' hes h
  | cons key path ih =>
    rw [Entries.updateAt] at h
    split at h
    · obtain ⟨sub, hsub, h⟩ := Option.bind_eq_some_iff.1 h
      cases h
      exact hes.put (.table (ih IsToml.nil hsub))
    · cases h
    · next heq =>
      split at h
      · cases h
      · obtain ⟨sub, hsub, h⟩ := Option.bind_eq_some_iff.1 h
        cases h
        cases hes.lookup heq with
        | table hold => exact hes.put (.table (ih hold hsub))
    · next tables heq =>
      obtain ⟨latest, hlatest, h⟩ := Option.bind_eq_some_iff.1 h
      obtain ⟨sub, hsub, h⟩ := Option.bind_eq_some_iff.1 h
      cases h
      cases hes.lookup heq with
      | series hold =>
        -- The tables before the latest one stay as they are.
        have hnew := ih (hold latest (List.mem_of_getLast? hlatest)) hsub
        refine hes.put (.series fun t ht => ?_)
        rcases List.mem_append.1 ht with ht | ht
        · exact hold t (List.dropLast_subset _ ht)
        · rw [List.mem_singleton.1 ht]
          exact hnew

/-- A pair adds its value. -/
theorem IsToml.addPair {parents : List String} {d : Data} {es' : Entries} (hes : es.IsToml)
    (hd : d.IsToml) (h : es.addPair parents key d = some es') : es'.IsToml := by
  refine hes.updateAt (fun origin es es' hes h => ?_) h
  split at h
  · cases h
  · split at h
    · cases h
    · cases h
      exact List.forall_mem_append.2 ⟨hes, List.forall_mem_singleton.2 (.value hd)⟩

/-- Pairs add their values. -/
theorem IsToml.addPairs {pairs : List (Key × Data)} {es' : Entries} (hes : es.IsToml)
    (hpairs : ArePairs pairs) (h : es.addPairs pairs = some es') : es'.IsToml :=
  foldlM_preserves (fun p hp _ _ hes h => hes.addPair (hpairs p hp) h) hes h

/-- A table that is filled under its header adds the values of its pairs. -/
theorem IsToml.put_addPairs {start es' : Entries} {pairs : List (Key × Data)} (hes : es.IsToml)
    (hpairs : ArePairs pairs) (hstart : start.IsToml) {node : Entries → Node}
    (hnode : ∀ entries : Entries, entries.IsToml → (node entries).IsToml)
    (h : (start.addPairs pairs).bind (fun entries => some (es.put key (node entries))) = some es') :
    es'.IsToml := by
  obtain ⟨entries, hentries, h⟩ := Option.bind_eq_some_iff.1 h
  cases h
  exact hes.put (hnode entries (hstart.addPairs hpairs hentries))

/-- A section adds its values. -/
theorem IsToml.addSection {s : Section} {es' : Entries} (hes : es.IsToml) (hs : ArePairs s.pairs)
    (h : es.addSection s = some es') : es'.IsToml := by
  unfold Entries.addSection at h
  split at h
  · refine hes.updateAt (fun _ es es' hes h => ?_) h
    dsimp only at h
    split at h
    · exact hes.put_addPairs hs IsToml.nil (fun _ => .table) h
    · next heq =>
      cases hes.lookup heq with
      | table hold => exact hes.put_addPairs hs hold (fun _ => .table) h
    · cases h
  · refine hes.updateAt (fun _ es es' hes h => ?_) h
    have happend : ∀ earlier : List Entries, (∀ t ∈ earlier, IsToml t) → ∀ entries : Entries,
        entries.IsToml → (Node.series (earlier ++ [entries])).IsToml :=
      fun _ hold _ hnew =>
        .series (List.forall_mem_append.2 ⟨hold, List.forall_mem_singleton.2 hnew⟩)
    dsimp only at h
    split at h
    · exact hes.put_addPairs hs IsToml.nil (happend [] nofun) h
    · next heq =>
      cases hes.lookup heq with
      | series hold => exact hes.put_addPairs hs IsToml.nil (happend _ hold) h
    · cases h

end Entries

/-- The data of a node holds its values. -/
theorem Node.IsToml.toData {node : Node} (h : node.IsToml) : node.toData.IsToml := by
  induction h with
  | value h =>
    rw [Node.toData]
    exact h
  | table _ ih =>
    rw [Node.toData, Entries.toData_eq_map]
    refine .table fun e he => ?_
    obtain ⟨e', he', rfl⟩ := List.mem_map.1 he
    exact ih e' he'
  | series _ ih =>
    rw [Node.toData, Entries.seriesToData_eq_map]
    refine .list fun d hd => ?_
    obtain ⟨es, hes, rfl⟩ := List.mem_map.1 hd
    rw [Entries.toData_eq_map]
    refine .table fun e he => ?_
    obtain ⟨e', he', rfl⟩ := List.mem_map.1 he
    exact ih es hes e' he'

/-- The data of entries holds their values. -/
theorem Entries.IsToml.toData {es : Entries} (h : es.IsToml) :
    (Data.table (Entries.toData es)).IsToml := by
  have hnode : (Node.table .header es).IsToml := .table h
  have hdata := hnode.toData
  rw [Node.toData] at hdata
  exact hdata

/-- The data of an inline table holds the values of its pairs. -/
theorem inlineTable?_isToml {pairs : List (Key × Data)} {d : Data} (hpairs : ArePairs pairs)
    (h : inlineTable? pairs = some d) : d.IsToml := by
  obtain ⟨es, hes, rfl⟩ := Option.map_eq_some_iff.1 h
  exact (Entries.IsToml.nil.addPairs hpairs hes).toData

/-- The data of a document holds the values of its pairs. -/
theorem Document.toData?_isToml {doc : Document} {d : Data} (hroot : ArePairs doc.root)
    (hsections : ∀ s ∈ doc.sections, ArePairs s.pairs) (h : doc.toData? = some d) : d.IsToml := by
  obtain ⟨start, hstart, h⟩ := Option.bind_eq_some_iff.1 h
  obtain ⟨es, hes, h⟩ := Option.bind_eq_some_iff.1 h
  cases h
  have hnew : Entries.IsToml start := Entries.IsToml.nil.addPairs hroot hstart
  have hall : Entries.IsToml es :=
    foldlM_preserves (fun s hs _ _ hes h => hes.addSection (hsections s hs) h) hnew hes
  exact hall.toData

/-! ## Scalars -/

/-- An integer that fits is one that TOML can hold. -/
theorem integer64?_isToml {n : Int} {d : Data} (h : integer64? n = some d) : d.IsToml := by
  unfold integer64? at h
  split at h
  · next hfits =>
    cases h
    exact .integer hfits.1 hfits.2
  · cases h

/-- A date or a time is read as such. -/
theorem readDateTime_isToml {cs rest : List Char} {d : Data}
    (h : readDateTime cs = some (d, rest)) : d.IsToml := by
  have hbehind : ∀ {o : Option (List Char)},
      o.map (fun rest => (Data.dateTime, rest)) = some (d, rest) → d.IsToml := by
    intro o ho
    obtain ⟨_, -, ho⟩ := Option.map_eq_some_iff.1 ho
    cases ho
    exact .dateTime
  unfold readDateTime at h
  split at h
  · split at h
    · split at h
      · split at h
        · exact hbehind h
        · cases h
          exact .dateTime
      · cases h
        exact .dateTime
    · cases h
      exact .dateTime
  · exact hbehind h

/-- An integer in another base fits, if it is read. -/
theorem readBased_isToml {base : Nat} {isDigit : Char → Bool} {cs rest : List Char} {d : Data}
    (h : readBased base isDigit cs = some (d, rest)) : d.IsToml := by
  obtain ⟨⟨ds, after⟩, -, h⟩ := Option.bind_eq_some_iff.1 h
  obtain ⟨n, hn, h⟩ := Option.bind_eq_some_iff.1 h
  cases h
  exact integer64?_isToml hn

/-- A decimal number is a float, or an integer that fits. -/
theorem readDecimalNumber_isToml {cs rest : List Char} {d : Data}
    (h : readDecimalNumber cs = some (d, rest)) : d.IsToml := by
  obtain ⟨⟨whole, after⟩, -, h⟩ := Option.bind_eq_some_iff.1 h
  have hint : ∀ {n : Int}, ((integer64? n).bind fun i => some (i, after)) = some (d, rest) →
      d.IsToml := by
    intro n hn
    obtain ⟨i, hi, hn⟩ := Option.bind_eq_some_iff.1 hn
    cases hn
    exact integer64?_isToml hi
  have hfloat : ∀ {after : List Char},
      ((readFraction after).bind fun fraction =>
        (readExponent fraction.2).bind fun exponent =>
          if !(readSign cs).1 &&
              overflows (whole ++ fraction.1) (exponent.1 - fraction.1.length) then none
          else some (Data.float, exponent.2)) = some (d, rest) → d.IsToml := by
    intro after h
    obtain ⟨fraction, -, h⟩ := Option.bind_eq_some_iff.1 h
    obtain ⟨exponent, -, h⟩ := Option.bind_eq_some_iff.1 h
    split at h
    · cases h
    · cases h
      exact .float
  dsimp only at h
  split at h
  · exact hfloat h
  · exact hfloat h
  · exact hfloat h
  · exact hint h

/-- A number is a float, or an integer that fits. -/
theorem readNumber_isToml {cs rest : List Char} {d : Data}
    (h : readNumber cs = some (d, rest)) : d.IsToml := by
  unfold readNumber at h
  dsimp only at h
  split at h
  · cases h
    exact .float
  · split at h
    · exact readBased_isToml h
    · exact readBased_isToml h
    · exact readBased_isToml h
    · exact readDecimalNumber_isToml h

/-- A scalar is one that TOML can hold. -/
theorem readScalar_isToml {cs rest : List Char} {d : Data}
    (h : readScalar cs = some (d, rest)) : d.IsToml := by
  unfold readScalar at h
  split at h
  · obtain ⟨_, -, h⟩ := Option.map_eq_some_iff.1 h
    cases h
    exact .boolean true
  · obtain ⟨_, -, h⟩ := Option.map_eq_some_iff.1 h
    cases h
    exact .boolean false
  · cases hdate : readDateTime cs with
    | some p =>
      rw [hdate] at h
      cases h
      exact readDateTime_isToml hdate
    | none =>
      rw [hdate] at h
      exact readNumber_isToml h

/-! ## Values -/

/-- What is read within a number of steps is data that TOML can hold: a value, the items of a list,
and the values of an inline table. -/
structure ReadIsToml (fuel : Nat) : Prop where
  value : ∀ {depth cs d rest}, readValueWithin fuel depth cs = some (d, rest) → d.IsToml
  items : ∀ {depth cs items rest}, readItems fuel depth cs = some (items, rest) →
    ∀ d ∈ items, d.IsToml
  pairs : ∀ {depth cs pairs rest}, readInlinePairs fuel depth cs = some (pairs, rest) →
    ArePairs pairs

namespace ReadIsToml

variable {fuel depth : Nat} {cs rest : List Char}

/-- One more step for a value. -/
theorem value_succ (ih : ReadIsToml fuel) {d : Data}
    (h : readValueWithin (fuel + 1) depth cs = some (d, rest)) : d.IsToml := by
  unfold readValueWithin at h
  split at h
  · split at h
    · cases h
    · obtain ⟨⟨items, _⟩, hread, h⟩ := Option.map_eq_some_iff.1 h
      cases h
      exact .list (ih.items hread)
  · split at h
    · cases h
    · dsimp only at h
      split at h
      · rw [Option.bind_eq_bind, Option.bind_some] at h
        obtain ⟨table, htable, h⟩ := Option.bind_eq_some_iff.1 h
        cases h
        exact inlineTable?_isToml (List.forall_mem_nil _) htable
      · obtain ⟨⟨pairs, _⟩, hread, h⟩ := Option.bind_eq_some_iff.1 h
        obtain ⟨table, htable, h⟩ := Option.bind_eq_some_iff.1 h
        cases h
        exact inlineTable?_isToml (ih.pairs hread) htable
  · obtain ⟨_, -, h⟩ := Option.map_eq_some_iff.1 h
    cases h
    exact .string _
  · obtain ⟨_, -, h⟩ := Option.map_eq_some_iff.1 h
    cases h
    exact .string _
  · exact readScalar_isToml h

/-- One more step for the items of a list. -/
theorem items_succ (ih : ReadIsToml fuel) {items : List Data}
    (h : readItems (fuel + 1) depth cs = some (items, rest)) : ∀ d ∈ items, d.IsToml := by
  unfold readItems at h
  split at h
  · cases h
    exact List.forall_mem_nil _
  · obtain ⟨⟨d, after⟩, hd, h⟩ := Option.bind_eq_some_iff.1 h
    dsimp only at h
    split at h
    · obtain ⟨⟨ds, _⟩, hds, h⟩ := Option.bind_eq_some_iff.1 h
      cases h
      exact List.forall_mem_cons.2 ⟨ih.value hd, ih.items hds⟩
    · cases h
      exact List.forall_mem_singleton.2 (ih.value hd)
    · cases h

/-- One more step for the pairs of an inline table. -/
theorem pairs_succ (ih : ReadIsToml fuel) {pairs : List (Key × Data)}
    (h : readInlinePairs (fuel + 1) depth cs = some (pairs, rest)) : ArePairs pairs := by
  obtain ⟨⟨key, after⟩, -, h⟩ := Option.bind_eq_some_iff.1 h
  obtain ⟨⟨d, after⟩, hd, h⟩ := Option.bind_eq_some_iff.1 h
  dsimp only at h
  split at h
  · obtain ⟨⟨ps, _⟩, hps, h⟩ := Option.bind_eq_some_iff.1 h
    cases h
    exact List.forall_mem_cons.2 ⟨ih.value hd, ih.pairs hps⟩
  · cases h
    exact List.forall_mem_singleton.2 (ih.value hd)
  · cases h

/-- What is read is data that TOML can hold, however many steps it takes. -/
theorem all (fuel : Nat) : ReadIsToml fuel := by
  induction fuel with
  | zero => constructor <;> intro _ _ _ _ h <;> cases h
  | succ fuel ih => exact ⟨ih.value_succ, ih.items_succ, ih.pairs_succ⟩

end ReadIsToml

/-- What is read is data that TOML can hold. -/
theorem readValue_isToml {cs rest : List Char} {d : Data} (h : readValue cs = some (d, rest)) :
    d.IsToml :=
  (ReadIsToml.all _).value h

/-! ## Documents -/

/-- The value of a line is data that TOML can hold. -/
def Line.IsToml : Line → Prop
  | .pair _ d => d.IsToml
  | .header _ => True

/-- The lines that are read hold data that TOML can hold. -/
theorem readLines_isToml {limit : Nat} {cs : List Char} {lines : List Line}
    (h : readLines limit cs = some lines) : ∀ line ∈ lines, line.IsToml := by
  induction limit generalizing cs lines with
  | zero => cases h
  | succ limit ih =>
    unfold readLines at h
    split at h
    · cases h
      exact nofun
    · obtain ⟨⟨header, rest⟩, -, h⟩ := Option.bind_eq_some_iff.1 h
      obtain ⟨later, hlater, h⟩ := Option.bind_eq_some_iff.1 h
      cases h
      exact List.forall_mem_cons.2 ⟨trivial, ih hlater⟩
    · split at h
      · obtain ⟨rest, -, h⟩ := Option.bind_eq_some_iff.1 h
        exact ih h
      · obtain ⟨⟨key, d, rest⟩, hpair, h⟩ := Option.bind_eq_some_iff.1 h
        obtain ⟨later, hlater, h⟩ := Option.bind_eq_some_iff.1 h
        cases h
        obtain ⟨⟨_, after⟩, -, hpair⟩ := Option.bind_eq_some_iff.1 hpair
        obtain ⟨⟨_, _⟩, hd, hpair⟩ := Option.bind_eq_some_iff.1 hpair
        obtain ⟨_, -, hpair⟩ := Option.bind_eq_some_iff.1 hpair
        cases hpair
        exact List.forall_mem_cons.2 ⟨readValue_isToml hd, ih hlater⟩

/-- The pairs of a document are those of its lines. -/
theorem Document.ofLines_isToml {lines : List Line} (h : ∀ line ∈ lines, line.IsToml) :
    ArePairs (Document.ofLines lines).root ∧
      ∀ s ∈ (Document.ofLines lines).sections, ArePairs s.pairs := by
  induction lines with
  | nil => exact ⟨nofun, nofun⟩
  | cons line lines ih =>
    obtain ⟨hline, hlines⟩ := List.forall_mem_cons.1 h
    obtain ⟨hroot, hsections⟩ := ih hlines
    cases line with
    | pair key d => exact ⟨List.forall_mem_cons.2 ⟨hline, hroot⟩, hsections⟩
    | header head => exact ⟨nofun, List.forall_mem_cons.2 ⟨hroot, hsections⟩⟩

/-- **The data of a text is data that TOML can hold.** -/
theorem parse?_isToml {s : String} {d : Data} (h : parse? s = some d) : d.IsToml := by
  obtain ⟨doc, hdoc, h⟩ := Option.bind_eq_some_iff.1 h
  obtain ⟨lines, hlines, rfl⟩ := Option.map_eq_some_iff.1 hdoc
  obtain ⟨hroot, hsections⟩ := Document.ofLines_isToml (readLines_isToml hlines)
  exact Document.toData?_isToml hroot hsections h

end Toml

end ReactorDeploy
