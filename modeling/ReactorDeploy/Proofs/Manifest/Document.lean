import ReactorDeploy.Manifest.Document
import ReactorDeploy.Proofs.Toml.Table

/-!
# Written manifests

A manifest can be written if its integers are within the bounds of the format
(`Manifest.blocks?_eq`). Then all of its blocks are within the bounds of the reader: their keys need
no quotes, their numbers fit (`Manifest.isWritable_of_mem_blocks`), and no key stands twice in one
of them (`Manifest.isSimple_of_mem_tables`, `Federate.isSimple_of_mem_blocks`).
-/

namespace ReactorDeploy

open Toml (Block Entries Plain Section optionalPair)

/-! ## Blocks -/

/-- Whether a number is within the bounds of integers in TOML. -/
abbrev Toml.IsInteger (n : UInt64) : Prop :=
  n.toNat < 0x8000000000000000

/-- The numbers of queue sizes. -/
def QueueSizes.integers (q : QueueSizes) : List UInt64 :=
  [q.events, q.reactions]

/-- The numbers of a federate. -/
def Federate.integers (f : Federate) : List UInt64 :=
  f.ordinal.toList ++ f.sizing.toList.flatMap QueueSizes.integers

/-- The numbers of a manifest, all of which are written. -/
def Manifest.integers (m : Manifest) : List UInt64 :=
  m.sizing.integers ++ m.federates.flatMap Federate.integers

/-- The pairs of queue sizes, bounds aside. -/
def QueueSizes.numberPairs (q : QueueSizes) : List (String × Plain) :=
  [("events", .number q.events.toNat), ("reactions", .number q.reactions.toNat)]

/-- The block of a federate itself, bounds aside. -/
def Federate.ownBlock (f : Federate) : Block where
  header := some (.element ⟨[], "federates"⟩)
  pairs :=
    [("name", .text f.name), ("platform", .text f.platform.name)] ++
    optionalPair "board" (f.board.map .text) ++
    optionalPair "ordinal" (f.ordinal.map fun n => .number n.toNat)

/-- The block of the queue sizes of a federate, bounds aside. -/
def QueueSizes.sizingBlock (q : QueueSizes) : Block where
  header := some (.table ⟨["federates"], "sizing"⟩)
  pairs := q.numberPairs

/-- The blocks of a federate, bounds aside. -/
def Federate.blocks (f : Federate) : List Block :=
  f.ownBlock :: f.interfaces.map Interface.block ++ f.sizing.toList.map QueueSizes.sizingBlock

/-- A block with the header of a table at the top. -/
def Toml.tableBlock (name : String) (pairs : List (String × Plain)) : Block where
  header := some (.table ⟨[], name⟩)
  pairs

/-- The pairs of the application. -/
def Manifest.projectPairs (m : Manifest) : List (String × Plain) :=
  ("name", .text m.name) :: optionalPair "main" (m.main.map .text)

/-- The tables of a manifest that come before its federates, bounds aside. -/
def Manifest.tables (m : Manifest) : List (String × Block) :=
  [("project", Toml.tableBlock "project" m.projectPairs),
    ("target", Toml.tableBlock "target" m.target.pairs),
    ("sizing", Toml.tableBlock "sizing" m.sizing.numberPairs),
    ("federation", Toml.tableBlock "federation" [("shared-numbering", .truth m.sharedNumbering)])]

/-- The blocks of a manifest, bounds aside. -/
def Manifest.blocks (m : Manifest) : List Block :=
  m.tables.map Prod.snd ++ m.federates.flatMap Federate.blocks

/-- Queue sizes can be written if their numbers are integers. -/
theorem QueueSizes.pairs?_eq (q : QueueSizes) [Decidable (∀ n ∈ q.integers, Toml.IsInteger n)] :
    q.pairs? = if ∀ n ∈ q.integers, Toml.IsInteger n then some q.numberPairs else none := by
  unfold pairs? Toml.plainNumber? integers
  by_cases hevents : Toml.IsInteger q.events
  · by_cases hreactions : Toml.IsInteger q.reactions
    · simp [hevents, hreactions, numberPairs]
    · simp [hevents, hreactions]
  · simp [hevents]

/-- A federate can be written if its numbers are integers. -/
theorem Federate.blocks?_eq (f : Federate) [Decidable (∀ n ∈ f.integers, Toml.IsInteger n)] :
    f.blocks? = if ∀ n ∈ f.integers, Toml.IsInteger n then some f.blocks else none := by
  obtain ⟨name, platform, board, interfaces, ordinal, sizing⟩ := f
  have hblock : ∀ q : QueueSizes, q.federateBlock? =
      if ∀ n ∈ q.integers, Toml.IsInteger n then some q.sizingBlock else none := by
    intro q
    rw [QueueSizes.federateBlock?, QueueSizes.pairs?_eq]
    split <;> rfl
  have hnumber : ∀ n, Toml.plainNumber? n =
      if Toml.IsInteger n then some (.number n.toNat) else none := fun _ => rfl
  cases ordinal with
  | none =>
    cases sizing with
    | none => simp [blocks?, integers, blocks, ownBlock]
    | some q =>
      by_cases hq : ∀ n ∈ q.integers, Toml.IsInteger n
      · simp [blocks?, integers, blocks, ownBlock, hblock, if_pos hq]
      · simp [blocks?, integers, hblock, if_neg hq]
  | some n =>
    by_cases hn : Toml.IsInteger n
    · cases sizing with
      | none => simp [blocks?, integers, blocks, ownBlock, hnumber, hn]
      | some q =>
        by_cases hq : ∀ n ∈ q.integers, Toml.IsInteger n
        · simp [blocks?, integers, blocks, ownBlock, hnumber, hn, hblock, if_pos hq]
        · simp [blocks?, integers, hnumber, hn, hblock, if_neg hq]
    · simp [blocks?, integers, hnumber, hn]

/-- Elements that are mapped if they have a property are mapped together if all of them have it. -/
theorem mapM_ite {α β : Type} (p : α → Prop) [DecidablePred p] (g : α → β) (l : List α) :
    (l.mapM fun a => if p a then some (g a) else none) =
      if ∀ a ∈ l, p a then some (l.map g) else none := by
  induction l with
  | nil => simp
  | cons a l ih =>
    rw [List.mapM_cons, ih]
    by_cases ha : p a
    · by_cases hl : ∀ b ∈ l, p b
      · rw [if_pos ha, if_pos hl, if_pos (List.forall_mem_cons.2 ⟨ha, hl⟩)]
        rfl
      · rw [if_pos ha, if_neg hl, if_neg fun h => hl (List.forall_mem_cons.1 h).2]
        rfl
    · rw [if_neg ha, if_neg fun h => ha (List.forall_mem_cons.1 h).1]
      rfl

/-- **A manifest can be written if its numbers are integers.** -/
theorem Manifest.blocks?_eq (m : Manifest) [Decidable (∀ n ∈ m.integers, Toml.IsInteger n)] :
    m.blocks? = if ∀ n ∈ m.integers, Toml.IsInteger n then some m.blocks else none := by
  have hfederates : m.federates.mapM Federate.blocks? =
      if ∀ f ∈ m.federates, ∀ n ∈ f.integers, Toml.IsInteger n then
        some (m.federates.map Federate.blocks) else none := by
    rw [← mapM_ite]
    exact congrArg (fun read => m.federates.mapM read) (funext fun f => f.blocks?_eq)
  have hall : (∀ n ∈ m.integers, Toml.IsInteger n) ↔ (∀ n ∈ m.sizing.integers, Toml.IsInteger n) ∧
      ∀ f ∈ m.federates, ∀ n ∈ f.integers, Toml.IsInteger n := by
    simp only [integers, List.mem_append, List.mem_flatMap]
    exact ⟨fun h => ⟨fun n hn => h n (.inl hn), fun f hf n hn => h n (.inr ⟨f, hf, hn⟩)⟩,
      fun ⟨hs, hfs⟩ n hn => hn.elim (hs n) fun ⟨f, hf, hn⟩ => hfs f hf n hn⟩
  rw [blocks?, QueueSizes.pairs?_eq, hfederates]
  by_cases hs : ∀ n ∈ m.sizing.integers, Toml.IsInteger n
  · by_cases hfs : ∀ f ∈ m.federates, ∀ n ∈ f.integers, Toml.IsInteger n
    · rw [if_pos hs, if_pos hfs, if_pos (hall.2 ⟨hs, hfs⟩)]
      rw [blocks, List.flatMap_def]
      rfl
    · rw [if_pos hs, if_neg hfs, if_neg fun h => hfs (hall.1 h).2]
      rfl
  · rw [if_neg hs, if_neg fun h => hs (hall.1 h).1]
    rfl

/-! ## What the reader asks of them -/

namespace Toml

/-- A pair that may be missing has one key at most. -/
theorem keys_optionalPair (key : String) (v : Option Plain) :
    ((optionalPair key v).map Prod.fst).Sublist [key] := by
  cases v with
  | none => exact List.nil_sublist _
  | some v => exact List.Sublist.refl _

/-- Whether a pair can be written. -/
abbrev isWritablePair (p : String × Plain) : Bool :=
  isBareText p.1 && p.2.fits

/-- A bare key and a value within bounds can be written. -/
theorem isWritablePair_of_fits {key : String} {v : Plain} (hkey : isBareText key) (hv : v.fits) :
    isWritablePair (key, v) :=
  Bool.and_eq_true_iff.2 ⟨hkey, hv⟩

/-- A pair that may be missing can be written, if it can when it is there. -/
theorem all_optionalPair {α : Type} {key : String} {write : α → Plain} {v : Option α}
    (hkey : isBareText key) (hwrite : ∀ a ∈ v, (write a).fits) :
    (optionalPair key (v.map write)).all isWritablePair := by
  cases v with
  | none => rfl
  | some a =>
    have hpair : isWritablePair (key, write a) := isWritablePair_of_fits hkey (hwrite a rfl)
    rw [Option.map_some, optionalPair, Option.toList_some, List.map_singleton, List.all_cons, hpair]
    rfl

/-- A block with a bare key in its header can be written if its pairs can. -/
theorem Block.isWritable_of_pairs {header : Header} {pairs : List (String × Plain)}
    (hheader : header.key.isBare) (hpairs : pairs.all isWritablePair) :
    (Block.mk (some header) pairs).isWritable :=
  Bool.and_eq_true_iff.2 ⟨hheader, hpairs⟩

end Toml

/-- The blocks of a federate are its own, those of its interfaces and that of its queue sizes. -/
theorem Federate.of_mem_blocks {f : Federate} {b : Block} (hb : b ∈ f.blocks) :
    b = f.ownBlock ∨ (∃ i ∈ f.interfaces, b = i.block) ∨ ∃ q ∈ f.sizing, b = q.sizingBlock := by
  rw [blocks, List.cons_append, List.mem_cons, List.mem_append] at hb
  rcases hb with hb | hb | hb
  · exact .inl hb
  · obtain ⟨i, hi, rfl⟩ := List.mem_map.1 hb
    exact .inr (.inl ⟨i, hi, rfl⟩)
  · obtain ⟨q, hq, rfl⟩ := List.mem_map.1 hb
    exact .inr (.inr ⟨q, Option.mem_toList.1 hq, rfl⟩)

/-- The keys of the target options are all different. -/
theorem TargetOptions.nodup_keys (o : TargetOptions) : (o.pairs.map Prod.fst).Nodup := by
  have hkeys : (o.pairs.map Prod.fst).Sublist
      ["platform", "board", "logging", "net-interface", "no-compile"] := by
    simp only [pairs, List.map_append]
    exact ((((Toml.keys_optionalPair _ _).append (Toml.keys_optionalPair _ _)).append
      (Toml.keys_optionalPair _ _)).append (Toml.keys_optionalPair _ _)).append
      (Toml.keys_optionalPair _ _)
  exact hkeys.nodup (by decide)

/-- No block of a federate has a key twice. -/
theorem Federate.isSimple_of_mem_blocks {f : Federate} {b : Block} (hb : b ∈ f.blocks) :
    b.isSimple := by
  rcases of_mem_blocks hb with rfl | ⟨i, -, rfl⟩ | ⟨q, -, rfl⟩
  · have hkeys : (f.ownBlock.pairs.map Prod.fst).Sublist
        ["name", "platform", "board", "ordinal"] := by
      simp only [ownBlock, List.map_append]
      exact ((List.Sublist.refl _).append (Toml.keys_optionalPair _ _)).append
        (Toml.keys_optionalPair _ _)
    exact decide_eq_true (hkeys.nodup (by decide))
  · rfl
  · rfl

/-- No table of a manifest has a key twice. -/
theorem Manifest.isSimple_of_mem_tables {m : Manifest} {b : String × Block} (hb : b ∈ m.tables) :
    b.2.isSimple := by
  simp only [tables, List.mem_cons, List.not_mem_nil, or_false] at hb
  rcases hb with rfl | rfl | rfl | rfl
  · have hkeys : (m.projectPairs.map Prod.fst).Sublist ["name", "main"] :=
      (Toml.keys_optionalPair "main" _).cons_cons "name"
    exact decide_eq_true (hkeys.nodup (by decide))
  · exact decide_eq_true m.target.nodup_keys
  · rfl
  · rfl

/-- The pairs of queue sizes can be written, if their numbers are integers. -/
theorem QueueSizes.all_numberPairs {q : QueueSizes} (h : ∀ n ∈ q.integers, Toml.IsInteger n) :
    q.numberPairs.all Toml.isWritablePair := by
  have hevents : Toml.IsInteger q.events := h _ (.head _)
  have hreactions : Toml.IsInteger q.reactions := h _ (.tail _ (.head _))
  simp only [numberPairs, List.all_cons, List.all_nil, Toml.isWritablePair, Plain.fits,
    decide_eq_true hevents, decide_eq_true hreactions, Bool.and_true]
  decide

/-- The pairs of target options can be written. -/
theorem TargetOptions.all_pairs (o : TargetOptions) : o.pairs.all Toml.isWritablePair := by
  simp only [pairs, List.all_append, Bool.and_eq_true]
  refine ⟨⟨⟨⟨?_, ?_⟩, ?_⟩, ?_⟩, ?_⟩ <;>
    exact Toml.all_optionalPair (by decide) fun _ _ => rfl

/-- The blocks of a federate can be written, if its numbers are integers. -/
theorem Federate.isWritable_of_mem_blocks {f : Federate} (h : ∀ n ∈ f.integers, Toml.IsInteger n)
    {b : Block} (hb : b ∈ f.blocks) : b.isWritable := by
  rcases of_mem_blocks hb with rfl | ⟨i, -, rfl⟩ | ⟨q, hq, rfl⟩
  · have hboard : (optionalPair "board" (f.board.map .text)).all Toml.isWritablePair :=
      Toml.all_optionalPair (by decide) fun _ _ => rfl
    have hinteger : ∀ n ∈ f.ordinal, Toml.IsInteger n := fun n hn =>
      h n (List.mem_append_left _ (Option.mem_toList.2 hn))
    have hordinal : (optionalPair "ordinal" (f.ordinal.map fun n => .number n.toNat)).all
        Toml.isWritablePair :=
      Toml.all_optionalPair (by decide) fun n hn => decide_eq_true (hinteger n hn)
    have hname : Toml.isWritablePair ("name", .text f.name) :=
      Toml.isWritablePair_of_fits (by decide) rfl
    have hplatform : Toml.isWritablePair ("platform", .text f.platform.name) :=
      Toml.isWritablePair_of_fits (by decide) rfl
    refine Block.isWritable_of_pairs (by decide) ?_
    simp only [List.all_append, List.all_cons, List.all_nil, hname, hplatform, hboard, hordinal]
    rfl
  · have haddress : Toml.isWritablePair ("address", .text i.address) :=
      Toml.isWritablePair_of_fits (by decide) rfl
    have htransport : Toml.isWritablePair ("transport", .text i.transport.name) :=
      Toml.isWritablePair_of_fits (by decide) rfl
    refine Block.isWritable_of_pairs (by decide) ?_
    simp only [List.all_cons, List.all_nil, haddress, htransport]
    rfl
  · have hintegers : ∀ n ∈ q.integers, Toml.IsInteger n := fun n hn =>
      h n (List.mem_append_right _ (List.mem_flatMap.2 ⟨q, Option.mem_toList.2 hq, hn⟩))
    exact Block.isWritable_of_pairs (by decide) (QueueSizes.all_numberPairs hintegers)

/-- The blocks of a manifest can be written, if its numbers are integers. -/
theorem Manifest.isWritable_of_mem_blocks {m : Manifest} (h : ∀ n ∈ m.integers, Toml.IsInteger n)
    {b : Block} (hb : b ∈ m.blocks) : b.isWritable := by
  rcases List.mem_append.1 hb with hb | hb
  · simp only [tables, List.map_cons, List.map_nil, List.mem_cons, List.not_mem_nil, or_false] at hb
    rcases hb with rfl | rfl | rfl | rfl
    · have hmain : (optionalPair "main" (m.main.map .text)).all Toml.isWritablePair :=
        Toml.all_optionalPair (by decide) fun _ _ => rfl
      have hname : Toml.isWritablePair ("name", .text m.name) :=
        Toml.isWritablePair_of_fits (by decide) rfl
      refine Block.isWritable_of_pairs (by decide) ?_
      rw [projectPairs, List.all_cons, hname, hmain]
      rfl
    · exact Block.isWritable_of_pairs (by decide) m.target.all_pairs
    · have hintegers : ∀ n ∈ m.sizing.integers, Toml.IsInteger n := fun n hn =>
        h n (List.mem_append_left _ hn)
      exact Block.isWritable_of_pairs (by decide) (QueueSizes.all_numberPairs hintegers)
    · have hshared : Toml.isWritablePair ("shared-numbering", .truth m.sharedNumbering) :=
        Toml.isWritablePair_of_fits (by decide) rfl
      refine Block.isWritable_of_pairs (by decide) ?_
      rw [List.all_cons, hshared]
      rfl
  · obtain ⟨f, hf, hb⟩ := List.mem_flatMap.1 hb
    refine Federate.isWritable_of_mem_blocks (fun n hn => h n ?_) hb
    exact List.mem_append_right _ (List.mem_flatMap.2 ⟨f, hf, hn⟩)

end ReactorDeploy
