import ReactorDeploy.Proofs.Manifest.Document

/-!
# The tables of manifests

The sections of a written manifest build one table, in which every federate is a table of a series
and has the tables of its interfaces and of its queue sizes in it (`Manifest.toData?_sections`).
What is written is looked up in that table under its key, and the readers of each part then give
back what was written, but for options that nobody chose (`Manifest.ofData?_entries`).
-/

namespace ReactorDeploy

open Toml (Block Entries Node Plain Section optionalPair)
open Toml.Entries (addSection seriesEntry)

/-! ## Looking up what is written -/

namespace Toml

/-- What may be missing is looked up under its key. -/
@[simp] theorem lookup_toList {α : Type} (key k : String) (v : Option α) :
    (v.toList.map fun x => (key, x)).lookup k = if k = key then v else none := by
  cases v with
  | none => exact (ite_self none).symm
  | some v =>
    show List.lookup k [(key, v)] = _
    rw [List.lookup_cons]
    by_cases h : k = key
    · rw [if_pos h, beq_iff_eq.2 h]
    · rw [if_neg h, beq_eq_false_iff_ne.2 h]
      rfl

/-- A pair that may be missing is looked up under its key. -/
@[simp] theorem lookup_optionalPair (key k : String) (v : Option Plain) :
    (optionalPair key v).lookup k = if k = key then v else none :=
  lookup_toList key k v

/-- The entries of a block are looked up as its pairs. -/
@[simp] theorem Block.lookup_entries (b : Block) (key : String) :
    b.entries.lookup key = (b.pairs.lookup key).map fun v => .value v.toData :=
  lookup_map (fun v : Plain => Node.value v.toData) b.pairs key

/-- There is no entry for tables that there are none of. -/
@[simp] theorem Entries.seriesEntry_nil (key : String) : seriesEntry key [] = [] :=
  rfl

/-- A series is looked up under its name. -/
@[simp] theorem Entries.lookup_seriesEntry (key k : String) (tables : List Entries) :
    (seriesEntry key tables).lookup k =
      if k = key ∧ tables ≠ [] then some (.series tables) else none := by
  cases tables with
  | nil => simp
  | cons t ts =>
    show List.lookup k [(key, Node.series (t :: ts))] = _
    rw [List.lookup_cons]
    by_cases h : k = key
    · simp [h]
    · simp [h, beq_eq_false_iff_ne.2 h]

end Toml

/-! ## Tables -/

namespace Federate

/-- The sections of a federate below its own. -/
def innerSections (f : Federate) : List Section :=
  (f.interfaces.map fun i => ⟨.element ⟨[], "interfaces"⟩, i.block.data⟩) ++
    f.sizing.toList.map fun q => ⟨.table ⟨[], "sizing"⟩, q.sizingBlock.data⟩

/-- The entries of the table of a federate. -/
def entries (f : Federate) : Entries :=
  f.ownBlock.entries ++ seriesEntry "interfaces" (f.interfaces.map fun i => i.block.entries) ++
    (f.sizing.map fun q => .table .header q.sizingBlock.entries).toList.map fun node =>
      ("sizing", node)

/-- The sections of a federate. -/
theorem filterMap_section?_blocks (f : Federate) :
    f.blocks.filterMap Block.section? =
      ⟨.element ⟨[], "federates"⟩, f.ownBlock.data⟩ ::
        f.innerSections.map (Section.under "federates") := by
  have hinterfaces : ∀ l : List Interface, (l.map Interface.block).filterMap Block.section? =
      l.map fun i => ⟨.element ⟨["federates"], "interfaces"⟩, i.block.data⟩ := by
    intro l
    rw [List.filterMap_map, ← List.filterMap_eq_map]
    rfl
  have hsizing : ∀ l : List QueueSizes, (l.map QueueSizes.sizingBlock).filterMap Block.section? =
      l.map fun q => ⟨.table ⟨["federates"], "sizing"⟩, q.sizingBlock.data⟩ := by
    intro l
    rw [List.filterMap_map, ← List.filterMap_eq_map]
    rfl
  have hown : f.ownBlock.section? = some ⟨.element ⟨[], "federates"⟩, f.ownBlock.data⟩ := rfl
  rw [blocks, List.cons_append, List.filterMap_cons_some hown, List.filterMap_append, hinterfaces,
    hsizing, innerSections, List.map_append, List.map_map, List.map_map]
  rfl

/-- The sections of a federate below its own build its table. -/
theorem addSections_inner (f : Federate) :
    f.innerSections.foldlM addSection f.ownBlock.entries = some f.entries := by
  have hsimple : ∀ b ∈ f.blocks, b.isSimple := fun b => isSimple_of_mem_blocks
  have hinterfaces : ∀ b ∈ f.interfaces.map Interface.block, b.isSimple := fun b hb =>
    hsimple b (List.mem_append_left _ (.tail _ hb))
  have hkey : f.ownBlock.entries.lookup "interfaces" = none := by
    simp [ownBlock, List.lookup_append, List.lookup_cons]
  have helements : (f.interfaces.map fun i =>
        (⟨.element ⟨[], "interfaces"⟩, i.block.data⟩ : Section)).foldlM addSection
        f.ownBlock.entries =
      some (f.ownBlock.entries ++
        seriesEntry "interfaces" (f.interfaces.map fun i => i.block.entries)) := by
    have hfold := Entries.addSections_elements hkey hinterfaces []
    rw [Entries.seriesEntry_nil, List.append_nil, List.nil_append, List.map_map, List.map_map]
      at hfold
    exact hfold
  rw [innerSections, List.foldlM_append, helements, entries]
  cases hsizing : f.sizing with
  | none => exact congrArg some (List.append_nil _).symm
  | some q =>
    have hq : q.sizingBlock.isSimple := rfl
    have hkey : (f.ownBlock.entries ++ seriesEntry "interfaces"
        (f.interfaces.map fun i => i.block.entries)).lookup "sizing" = none := by
      simp [ownBlock, List.lookup_append, List.lookup_cons]
    have htable := Entries.addSection_table hkey hq
    show (addSection _ _).bind some = _
    rw [htable]
    rfl

/-- The sections of a federate build one more table of the series. -/
theorem addSections {es : Entries} (h : es.lookup "federates" = none) (tables : List Entries)
    (f : Federate) :
    (f.blocks.filterMap Block.section?).foldlM addSection (es ++ seriesEntry "federates" tables) =
      some (es ++ seriesEntry "federates" (tables ++ [f.entries])) := by
  have hseries : ∀ t, seriesEntry "federates" (tables ++ [t]) =
      [("federates", .series (tables ++ [t]))] := fun t => if_neg (by simp)
  have hown : f.ownBlock.isSimple := isSimple_of_mem_blocks (.head _)
  have hadd := Entries.addSection_element h hown tables
  have hinner := Entries.addSections_under h tables f.ownBlock.entries f.innerSections
  rw [f.addSections_inner, ← hseries] at hinner
  rw [filterMap_section?_blocks, List.foldlM_cons, hadd, hseries f.entries]
  exact hinner

/-- The sections of federates build the tables of the series. -/
theorem addSections_all {es : Entries} (h : es.lookup "federates" = none) (tables : List Entries)
    (fs : List Federate) :
    ((fs.flatMap Federate.blocks).filterMap Block.section?).foldlM addSection
        (es ++ seriesEntry "federates" tables) =
      some (es ++ seriesEntry "federates" (tables ++ fs.map Federate.entries)) := by
  induction fs generalizing tables with
  | nil => simp
  | cons f fs ih =>
    have hrest := ih (tables ++ [f.entries])
    rw [List.append_assoc] at hrest
    rw [List.flatMap_cons, List.filterMap_append, List.foldlM_append, addSections h]
    exact hrest

end Federate

namespace Manifest

/-- The entries of the table of a manifest, its federates aside. -/
def tableEntries (m : Manifest) : Entries :=
  m.tables.map fun b => (b.1, .table .header b.2.entries)

/-- The entries of the table of a manifest. -/
def entries (m : Manifest) : Entries :=
  m.tableEntries ++ seriesEntry "federates" (m.federates.map Federate.entries)

/-- The sections of a manifest build its table. -/
theorem toData?_sections (m : Manifest) :
    Toml.Document.toData? ⟨[], m.blocks.filterMap Block.section?⟩ =
      some (.table (Entries.toData m.entries)) := by
  have hnames : (m.tables.map Prod.fst).Nodup := by
    show ["project", "target", "sizing", "federation"].Nodup
    decide
  have htables : (m.tables.map fun b => (⟨.table ⟨[], b.1⟩, b.2.data⟩ : Section)).foldlM addSection
      [] = some m.tableEntries :=
    Entries.addSections_tables (fun _ => isSimple_of_mem_tables) hnames
  have hsections : (m.tables.map Prod.snd).filterMap Block.section? =
      m.tables.map fun b => ⟨.table ⟨[], b.1⟩, b.2.data⟩ := rfl
  have hkey : m.tableEntries.lookup "federates" = none := rfl
  have hfederates := Federate.addSections_all hkey [] m.federates
  rw [Entries.seriesEntry_nil, List.append_nil] at hfederates
  rw [Toml.Document.toData?, blocks, List.filterMap_append, hsections]
  show (List.foldlM addSection [] _).bind _ = _
  rw [List.foldlM_append, htables]
  show (List.foldlM addSection m.tableEntries _).bind _ = _
  rw [hfederates]
  rfl

end Manifest

/-! ## Reading the tables -/

/-- The data of a block is looked up as its pairs. -/
theorem Toml.Block.lookup_toData (b : Block) (key : String) :
    (Entries.toData b.entries).lookup key = (b.pairs.lookup key).map Plain.toData := by
  rw [Entries.lookup_toData, lookup_entries, Option.map_map]
  rfl

/-- A written number is read back. -/
theorem Data.word?_toNat (n : UInt64) : Data.word? (.integer n.toNat) = some n := by
  have hsize : n.toNat < 0x10000000000000000 := n.toNat_lt
  rw [Data.word?, if_pos (by omega), Int.toNat_natCast, UInt64.ofNat_toNat]

/-- The option if the user chose it, and else its default. -/
def Tracked.orDefault {α : Type} (default : α) (t : Tracked α) : Tracked α :=
  if t.userSet then t else .computed default

/-- A board that the user chose, if that is one. -/
def Tracked.boardOrDefault (t : Tracked (Option String)) : Tracked (Option String) :=
  if t.value.isNone then .computed none else t.orDefault none

/-- The options as they are read back. -/
def TargetOptions.readBack (o : TargetOptions) : TargetOptions where
  platform := o.platform.orDefault .auto
  board := o.board.boardOrDefault
  logging := o.logging.orDefault .info
  netInterface := o.netInterface.orDefault .ethernet
  noCompile := o.noCompile.orDefault false

/-- A written option is read back as the user's choice, and one that is not written as the
default. -/
theorem Tracked.ofField?_userValue {α : Type} {default : α} {read : Data → Option α}
    {write : α → Plain} (hread : ∀ a, read (write a).toData = some a) (t : Tracked α) :
    Tracked.ofField? default read ((t.userValue?.map write).map Plain.toData) =
      some (t.orDefault default) := by
  obtain ⟨value, userSet⟩ := t
  cases userSet with
  | false => rfl
  | true => simp [ofField?, userValue?, Data.fieldOr, hread, orDefault, user]

/-- A written board is read back as the user's choice. -/
theorem Tracked.ofField?_board (t : Tracked (Option String)) :
    Tracked.ofField? none (Data.nullable? Data.string?)
        ((t.userValue?.join.map Plain.text).map Plain.toData) = some t.boardOrDefault := by
  obtain ⟨value, userSet⟩ := t
  cases userSet with
  | false => cases value <;> rfl
  | true => cases value <;> rfl

/-- A written platform is read back. -/
theorem Platform.ofData?_name (p : Platform) :
    Platform.ofData? .toml (Plain.text p.name).toData = some p :=
  ofName?_name p

/-- A written log level is read back. -/
theorem LogLevel.ofData?_name (level : LogLevel) :
    LogLevel.ofData? .toml (Plain.text level.name).toData = some level :=
  ofName?_name level

/-- A written transport is read back. -/
theorem Transport.ofData?_name (t : Transport) :
    Transport.ofData? .toml (Plain.text t.name).toData = some t :=
  ofName?_name t

/-- Written target options are read back. -/
theorem TargetOptions.ofData?_entries (o : TargetOptions) :
    TargetOptions.ofData? .toml
        (.table (Entries.toData (Toml.tableBlock "target" o.pairs).entries)) =
      some o.readBack := by
  have hpairs : ∀ key, (Entries.toData (Toml.tableBlock "target" o.pairs).entries).lookup key =
      (o.pairs.lookup key).map Plain.toData := fun key => Block.lookup_toData _ key
  have hplatform : o.pairs.lookup "platform" = o.platform.userValue?.map fun p => .text p.name := by
    simp [pairs, List.lookup_append]
  have hboard : o.pairs.lookup "board" = o.board.userValue?.join.map .text := by
    simp [pairs, List.lookup_append]
  have hlogging : o.pairs.lookup "logging" = o.logging.userValue?.map fun l => .text l.name := by
    simp [pairs, List.lookup_append]
  have hnetInterface : o.pairs.lookup "net-interface" =
      o.netInterface.userValue?.map fun t => .text t.name := by
    simp [pairs, List.lookup_append]
  have hnoCompile : o.pairs.lookup "no-compile" = o.noCompile.userValue?.map .truth := by
    simp [pairs, List.lookup_append]
  have htruth : ∀ b, Data.boolean? (Plain.truth b).toData = some b := fun _ => rfl
  unfold TargetOptions.ofData?
  rw [Data.record?, Option.bind_eq_bind, Option.bind_some]
  dsimp only
  rw [hpairs, hpairs, hpairs, hpairs, hpairs, hplatform, hboard, hlogging, hnetInterface,
    hnoCompile, Tracked.ofField?_userValue Platform.ofData?_name, Tracked.ofField?_board,
    Tracked.ofField?_userValue LogLevel.ofData?_name,
    Tracked.ofField?_userValue Transport.ofData?_name,
    Tracked.ofField?_userValue htruth]
  rfl

/-- Written queue sizes are read back. -/
theorem QueueSizes.ofData?_entries {b : Block} {q : QueueSizes} (h : b.pairs = q.numberPairs) :
    QueueSizes.ofData? .toml (.table (Entries.toData b.entries)) = some q := by
  have hevents : (Entries.toData b.entries).lookup "events" = some (.integer q.events.toNat) := by
    rw [Block.lookup_toData, h]
    rfl
  have hreactions : (Entries.toData b.entries).lookup "reactions" =
      some (.integer q.reactions.toNat) := by
    rw [Block.lookup_toData, h]
    rfl
  simp [QueueSizes.ofData?, Data.record?, hevents, hreactions, Data.fieldOr, Data.word?_toNat]

/-- A written interface is read back. -/
theorem Interface.ofData?_entries (i : Interface) :
    Interface.ofData? .toml (.table (Entries.toData i.block.entries)) = some i := by
  have haddress : (Entries.toData i.block.entries).lookup "address" = some (.string i.address) := by
    rw [Block.lookup_toData]
    rfl
  have htransport : (Entries.toData i.block.entries).lookup "transport" =
      some (Plain.text i.transport.name).toData := by
    rw [Block.lookup_toData]
    rfl
  simp [Interface.ofData?, Data.record?, haddress, htransport, Data.string?, Data.fieldOr,
    Transport.ofData?_name]

/-- Records that are read back one by one are read back from the series of their tables. -/
theorem Data.records?_series {α : Type} {read : Data → Option α} {entries : α → Entries}
    (hread : ∀ a, read (.table (Entries.toData (entries a))) = some a) (key : String) (l : List α) :
    Data.fieldOr [] (Data.records? read)
        (((seriesEntry key (l.map entries)).lookup key).map Node.toData) = some l := by
  have hitems : ∀ l : List α,
      (Entries.seriesToData (l.map entries)).mapM read = some l := by
    intro l
    induction l with
    | nil => rfl
    | cons a l ih =>
      rw [List.map_cons, Entries.seriesToData, List.mapM_cons, hread, ih]
      rfl
  rw [Entries.lookup_seriesEntry]
  by_cases hl : l = []
  · rw [if_neg fun h => h.2 (List.map_eq_nil_iff.2 hl), hl]
    rfl
  · rw [if_pos ⟨rfl, fun h => hl (List.map_eq_nil_iff.1 h)⟩]
    exact hitems l

/-- Null is the only data that stands for the absence of some. -/
theorem Data.nullable?_of_ne_null {α : Type} {d : Data} (hd : d ≠ .null) (read : Data → Option α) :
    Data.nullable? read d = (read d).map some := by
  cases d with
  | null => exact absurd rfl hd
  | boolean | integer | float | dateTime | string | list | table => rfl

/-- What may be missing is read back, if it is when it is there. -/
theorem Data.fieldOr_nullable {α : Type} {read : Data → Option α} {write : α → Data}
    (hread : ∀ a, Data.nullable? read (write a) = some (some a)) (v : Option α) :
    Data.fieldOr none (Data.nullable? read) (v.map write) = some v := by
  cases v with
  | none => rfl
  | some a => exact hread a

/-- A written federate is read back. -/
theorem Federate.ofData?_entries (f : Federate) :
    Federate.ofData? .toml (.table (Entries.toData f.entries)) = some f := by
  have hlookup : ∀ key, (Entries.toData f.entries).lookup key =
      (f.entries.lookup key).map Node.toData := Entries.lookup_toData f.entries
  have hname : (Entries.toData f.entries).lookup "name" = some (.string f.name) := by
    rw [hlookup]
    simp [entries, ownBlock, List.lookup_append, Plain.toData, Node.toData]
  have hplatform : (Entries.toData f.entries).lookup "platform" =
      some (Plain.text f.platform.name).toData := by
    rw [hlookup]
    simp [entries, ownBlock, List.lookup_append, List.lookup_cons, Node.toData]
  have hboard : (Entries.toData f.entries).lookup "board" = f.board.map .string := by
    rw [hlookup]
    simp [entries, ownBlock, List.lookup_append, List.lookup_cons, Function.comp_def,
      Plain.toData, Node.toData]
  have hinterfaces : (Entries.toData f.entries).lookup "interfaces" =
      ((seriesEntry "interfaces" (f.interfaces.map fun i => i.block.entries)).lookup
        "interfaces").map Node.toData := by
    rw [hlookup]
    simp [entries, ownBlock, List.lookup_append, List.lookup_cons]
  have hordinal : (Entries.toData f.entries).lookup "ordinal" =
      f.ordinal.map fun n => .integer n.toNat := by
    rw [hlookup]
    simp [entries, ownBlock, List.lookup_append, List.lookup_cons, Function.comp_def,
      Plain.toData, Node.toData]
  have hsizing : (Entries.toData f.entries).lookup "sizing" =
      f.sizing.map fun q => .table (Entries.toData q.sizingBlock.entries) := by
    rw [hlookup]
    simp [entries, ownBlock, List.lookup_append, List.lookup_cons, Function.comp_def,
      Node.toData]
  have htext : ∀ s, Data.nullable? Data.string? (.string s) = some (some s) := fun _ => rfl
  have hword : ∀ n : UInt64, Data.nullable? Data.word? (.integer n.toNat) = some (some n) := by
    intro n
    rw [Data.nullable?_of_ne_null Data.noConfusion, Data.word?_toNat]
    rfl
  have hqueues : ∀ q : QueueSizes, Data.nullable? (QueueSizes.ofData? .toml)
      (.table (Entries.toData q.sizingBlock.entries)) = some (some q) := by
    intro q
    rw [Data.nullable?_of_ne_null Data.noConfusion, QueueSizes.ofData?_entries rfl]
    rfl
  unfold Federate.ofData?
  rw [Data.record?, Option.bind_eq_bind, Option.bind_some]
  dsimp only
  rw [hname, hplatform, hboard, hinterfaces, hordinal, hsizing,
    Data.records?_series Interface.ofData?_entries,
    Data.fieldOr_nullable htext, Data.fieldOr_nullable hword,
    Data.fieldOr_nullable hqueues, Data.fieldOr, Platform.ofData?_name]
  rfl

/-- The written names of the application and of its main reactor are read back. -/
theorem Manifest.projectOfData?_entries (m : Manifest) :
    Manifest.projectOfData? .toml
        (.table (Entries.toData (Toml.tableBlock "project" m.projectPairs).entries)) =
      some (m.name, m.main) := by
  have hname : (Entries.toData (Toml.tableBlock "project" m.projectPairs).entries).lookup "name" =
      some (.string m.name) := by
    rw [Block.lookup_toData]
    rfl
  have hmain : (Entries.toData (Toml.tableBlock "project" m.projectPairs).entries).lookup "main" =
      m.main.map .string := by
    simp [Block.lookup_toData, Toml.tableBlock, projectPairs, List.lookup_cons, Function.comp_def,
      Plain.toData]
  have htext : ∀ s, Data.nullable? Data.string? (.string s) = some (some s) := fun _ => rfl
  unfold Manifest.projectOfData?
  rw [Data.record?, Option.bind_eq_bind, Option.bind_some]
  dsimp only
  rw [hname, hmain, Data.fieldOr_nullable htext]
  rfl

/-- A written manifest is read back, with the options that nobody chose at their defaults. -/
theorem Manifest.ofData?_entries (m : Manifest) :
    Manifest.ofData? .toml (.table (Entries.toData m.entries)) =
      some { m with target := m.target.readBack } := by
  have hlookup : ∀ key, (Entries.toData m.entries).lookup key =
      (m.entries.lookup key).map Node.toData := Entries.lookup_toData m.entries
  have hproject : (Entries.toData m.entries).lookup "project" =
      some (.table (Entries.toData (Toml.tableBlock "project" m.projectPairs).entries)) := by
    rw [hlookup]
    simp [entries, tableEntries, tables, Node.toData]
  have htarget : Data.fieldOr {} (TargetOptions.ofData? .toml)
      ((Entries.toData m.entries).lookup "target") = some m.target.readBack := by
    rw [hlookup]
    simp [entries, tableEntries, tables, List.lookup_cons, Node.toData, Data.fieldOr,
      TargetOptions.ofData?_entries]
  have hsizing : Data.fieldOr {} (QueueSizes.ofData? .toml)
      ((Entries.toData m.entries).lookup "sizing") = some m.sizing := by
    have hentry : m.entries.lookup "sizing" =
        some (.table .header (Toml.tableBlock "sizing" m.sizing.numberPairs).entries) := by
      simp [entries, tableEntries, tables, List.lookup_cons]
    have hread := QueueSizes.ofData?_entries
      (b := Toml.tableBlock "sizing" m.sizing.numberPairs) rfl
    rw [hlookup, hentry, Option.map_some, Node.toData, Data.fieldOr, hread]
  have hshared : Data.fieldOr false (Manifest.sharedNumberingOfData? .toml)
      ((Entries.toData m.entries).lookup "federation") = some m.sharedNumbering := by
    rw [hlookup]
    simp [entries, tableEntries, tables, List.lookup_cons, Node.toData, Data.fieldOr,
      Block.entries, Toml.tableBlock, Entries.toData, Plain.toData, sharedNumberingOfData?,
      Data.record?, Data.boolean?]
  have hfederates : Data.fieldOr [] (Data.records? (Federate.ofData? .toml))
      ((Entries.toData m.entries).lookup "federates") = some m.federates := by
    have hseries : m.entries.lookup "federates" =
        (seriesEntry "federates" (m.federates.map Federate.entries)).lookup "federates" := by
      simp [entries, tableEntries, tables, List.lookup_cons]
    rw [hlookup, hseries, Data.records?_series Federate.ofData?_entries]
  unfold Manifest.ofData?
  rw [Data.record?, Option.bind_eq_bind, Option.bind_some]
  dsimp only
  rw [hproject, htarget, hsizing, hshared, hfederates]
  simp only [Option.bind_eq_bind, Option.bind_some, projectOfData?_entries]
  rfl

end ReactorDeploy
