import ReactorDeploy.Manifest
import ReactorDeploy.Toml.Printer
import ReactorDeploy.Toml.Reader

/-!
# Manifests as documents

A manifest is read from the data of a document, and written as TOML. Reading marks every option
that the document has as chosen by the user, and ignores keys that mean nothing; writing leaves out
the options that nobody chose, so that they are computed anew when the text is read.

Integers in TOML end at 2^63 - 1. A manifest with a greater one cannot be written.
-/

namespace ReactorDeploy

/-! ## Reading -/

section

variable (c : Data.Convention)

/-- Reads a platform by its manifest name. -/
def Platform.ofData? (d : Data) : Option Platform :=
  (d.keyword? c).bind Platform.ofName?

/-- Reads a log level by its name. -/
def LogLevel.ofData? (d : Data) : Option LogLevel :=
  (d.keyword? c).bind LogLevel.ofName?

/-- Reads a transport by its manifest name. -/
def Transport.ofData? (d : Data) : Option Transport :=
  (d.keyword? c).bind Transport.ofName?

/-- Reads an option. One that the document has is the user's choice. -/
def Tracked.ofField? {α : Type} (default : α) (read : Data → Option α) (field : Option Data) :
    Option (Tracked α) :=
  Data.fieldOr (.computed default) (fun d => (read d).map .user) field

/-- Reads the target options. -/
def TargetOptions.ofData? (d : Data) : Option TargetOptions := do
  let field ← d.record? c ["platform", "board", "logging", "net-interface", "no-compile"]
  let platform ← Tracked.ofField? .auto (Platform.ofData? c) (field "platform")
  let board ← Tracked.ofField? none (Data.nullable? Data.string?) (field "board")
  let logging ← Tracked.ofField? .info (LogLevel.ofData? c) (field "logging")
  let netInterface ← Tracked.ofField? .ethernet (Transport.ofData? c) (field "net-interface")
  let noCompile ← Tracked.ofField? false Data.boolean? (field "no-compile")
  return { platform, board, logging, netInterface, noCompile }

/-- Reads queue sizes. -/
def QueueSizes.ofData? (d : Data) : Option QueueSizes := do
  let field ← d.record? c ["events", "reactions"]
  let events ← Data.fieldOr 0 Data.word? (field "events")
  let reactions ← Data.fieldOr 0 Data.word? (field "reactions")
  return { events, reactions }

/-- Reads a network interface. -/
def Interface.ofData? (d : Data) : Option Interface := do
  let field ← d.record? c ["address", "transport"]
  let address ← (← field "address").string?
  let transport ← Data.fieldOr .ethernet (Transport.ofData? c) (field "transport")
  return { address, transport }

/-- Reads a list of records. -/
def Data.records? {α : Type} (read : Data → Option α) (d : Data) : Option (List α) :=
  d.list?.bind fun items => items.mapM read

/-- Reads a federate. -/
def Federate.ofData? (d : Data) : Option Federate := do
  let field ← d.record? c ["name", "platform", "board", "interfaces", "ordinal", "sizing"]
  let name ← (← field "name").string?
  let platform ← Data.fieldOr .auto (Platform.ofData? c) (field "platform")
  let board ← Data.fieldOr none (Data.nullable? Data.string?) (field "board")
  let interfaces ← Data.fieldOr [] (Data.records? (Interface.ofData? c)) (field "interfaces")
  let ordinal ← Data.fieldOr none (Data.nullable? Data.word?) (field "ordinal")
  let sizing ← Data.fieldOr none (Data.nullable? (QueueSizes.ofData? c)) (field "sizing")
  return { name, platform, board, interfaces, ordinal, sizing }

/-- Reads the application name and the name of the main reactor. -/
def Manifest.projectOfData? (d : Data) : Option (String × Option String) := do
  let field ← d.record? c ["name", "main"]
  let name ← (← field "name").string?
  let main ← Data.fieldOr none (Data.nullable? Data.string?) (field "main")
  return (name, main)

/-- Reads whether address numbering goes on from pass to pass. -/
def Manifest.sharedNumberingOfData? (d : Data) : Option Bool := do
  let field ← d.record? c ["shared-numbering"]
  Data.fieldOr false Data.boolean? (field "shared-numbering")

/-- Reads a manifest. -/
def Manifest.ofData? (d : Data) : Option Manifest := do
  let field ← d.record? c ["project", "target", "sizing", "federation", "federates"]
  let (name, main) ← Manifest.projectOfData? c (← field "project")
  let target ← Data.fieldOr {} (TargetOptions.ofData? c) (field "target")
  let sizing ← Data.fieldOr {} (QueueSizes.ofData? c) (field "sizing")
  let sharedNumbering ← Data.fieldOr false (Manifest.sharedNumberingOfData? c) (field "federation")
  let federates ← Data.fieldOr [] (Data.records? (Federate.ofData? c)) (field "federates")
  return { name, main, target, sizing, sharedNumbering, federates }

end

/-- Why a text is no usable manifest. -/
inductive ManifestError where
  /-- It is no TOML, or does not have the shape of a manifest. -/
  | malformed
  /-- The application name has nothing but blanks in it. -/
  | emptyProjectName
  deriving DecidableEq, Repr

/-- What a manifest error says. -/
def ManifestError.message : ManifestError → String
  | .malformed => "malformed manifest: not the TOML of a manifest"
  | .emptyProjectName => "project.name must not be empty"

/-- Reads a manifest from a TOML text and fills in the ordinals that it leaves out. -/
def Manifest.parse (s : String) : Except ManifestError Manifest :=
  match (Toml.parse? s).bind (Manifest.ofData? .toml) with
  | none => .error .malformed
  | some m => if m.hasBlankName then .error .emptyProjectName else .ok m.assignOrdinals

/-! ## Writing -/

/-- A pair for a value that is there, and none otherwise. -/
def Toml.optionalPair (key : String) (value : Option Toml.Plain) : List (String × Toml.Plain) :=
  value.toList.map fun v => (key, v)

open Toml (Block Plain optionalPair)

/-- The number as a TOML integer, if it is one. -/
def Toml.plainNumber? (n : UInt64) : Option Plain :=
  if n.toNat < 0x8000000000000000 then some (.number n.toNat) else none

/-- The pairs of queue sizes. -/
def QueueSizes.pairs? (q : QueueSizes) : Option (List (String × Plain)) := do
  return [("events", ← Toml.plainNumber? q.events), ("reactions", ← Toml.plainNumber? q.reactions)]

/-- The block of the queue sizes that a federate has of its own. -/
def QueueSizes.federateBlock? (q : QueueSizes) : Option Block :=
  q.pairs?.map fun pairs => { header := some (.table ⟨["federates"], "sizing"⟩), pairs }

/-- The pairs of the target options that the user chose. -/
def TargetOptions.pairs (o : TargetOptions) : List (String × Plain) :=
  optionalPair "platform" (o.platform.userValue?.map fun p => .text p.name) ++
  optionalPair "board" (o.board.userValue?.join.map .text) ++
  optionalPair "logging" (o.logging.userValue?.map fun l => .text l.name) ++
  optionalPair "net-interface" (o.netInterface.userValue?.map fun t => .text t.name) ++
  optionalPair "no-compile" (o.noCompile.userValue?.map .truth)

/-- The block of a network interface. -/
def Interface.block (i : Interface) : Block where
  header := some (.element ⟨["federates"], "interfaces"⟩)
  pairs := [("address", .text i.address), ("transport", .text i.transport.name)]

/-- The blocks of a federate: itself, its interfaces, and its queue sizes. -/
def Federate.blocks? (f : Federate) : Option (List Block) := do
  let ordinal ← match f.ordinal with
    | none => some none
    | some n => (Toml.plainNumber? n).map some
  let sizing ← match f.sizing with
    | none => some []
    | some q => q.federateBlock?.map fun block => [block]
  let own : Block :=
    { header := some (.element ⟨[], "federates"⟩)
      pairs :=
        [("name", .text f.name), ("platform", .text f.platform.name)] ++
        optionalPair "board" (f.board.map .text) ++ optionalPair "ordinal" ordinal }
  return own :: f.interfaces.map Interface.block ++ sizing

/-- The blocks of a manifest, if its integers can be written. -/
def Manifest.blocks? (m : Manifest) : Option (List Block) := do
  let sizing ← m.sizing.pairs?
  let federates ← m.federates.mapM Federate.blocks?
  let table (name : String) (pairs : List (String × Plain)) : Block :=
    { header := some (.table ⟨[], name⟩), pairs }
  let project := ("name", .text m.name) :: optionalPair "main" (m.main.map .text)
  let federation := [("shared-numbering", .truth m.sharedNumbering)]
  return [table "project" project, table "target" m.target.pairs, table "sizing" sizing,
    table "federation" federation] ++ federates.flatten

/-- The TOML text of a manifest, if its integers can be written. -/
def Manifest.toToml? (m : Manifest) : Option String :=
  m.blocks?.map Toml.renderBlocks

end ReactorDeploy
