import ReactorDeploy.Manifest

/-!
# Command lines

The commands of the program and how they are given. Arguments are taken from left to right: the
first one that is not understood refuses the command line, and a request for help or for the
version ends it there.

Options with a value take it behind an equals sign or as the next argument, which then must not
look like an option itself. No option may be given twice. Behind `--` nothing is an option or the
name of a command any more.
-/

namespace ReactorDeploy.Command

/-- Target options given on the command line, which take precedence over those of the manifest. -/
structure Overrides where
  platform : Option Platform := none
  board : Option String := none
  deriving DecidableEq, Repr

/-- The manifest with the target options of the command line, as choices of the user. -/
def Overrides.apply (o : Overrides) (m : Manifest) : Manifest :=
  let platform := match o.platform with
    | some p => .user p
    | none => m.target.platform
  let board := match o.board with
    | some b => .user (some b)
    | none => m.target.board
  { m with target := { m.target with platform, board } }

/-- What the program can be told to do. -/
inductive Action where
  /-- Make a new project. -/
  | init (name : String)
  /-- Generate the artifacts of the project. -/
  | generate (out workspace : Option String) (overrides : Overrides) (json : Bool)
  /-- Check the manifest of the project. -/
  | check (overrides : Overrides)
  /-- List the platforms. -/
  | listTargets
  /-- Describe a platform. -/
  | describeTarget (name : String) (format : Option String)
  /-- Remove what was generated. -/
  | clean (out : Option String)
  deriving DecidableEq, Repr

/-- Why a command line leads to no action. -/
inductive Stop where
  | refused
  | help
  | version
  deriving DecidableEq, Repr

/-- What a command takes beside the flags that all of them take. -/
structure Shape where
  /-- The options with a value, each with what its value has to be. -/
  options : List (String × (String → Bool)) := []
  /-- The options without a value. -/
  switches : List String := []
  /-- The number of arguments that are no options. -/
  operands : Nat := 0

/-- The arguments of a command, sorted. -/
structure Sorted where
  options : List (String × String) := []
  switches : List String := []
  operands : List String := []
  deriving DecidableEq, Repr

/-- Whether an argument looks like an option: a dash and more. -/
def looksLikeOption (arg : String) : Bool :=
  match arg.toList with
  | '-' :: _ :: _ => true
  | _ => false

/-- The name of an option in its long form, and the value attached to it. -/
def longOption? (arg : String) : Option (String × Option String) :=
  match arg.toList with
  | '-' :: '-' :: cs =>
    let name := String.ofList (cs.takeWhile (· != '='))
    match cs.dropWhile (· != '=') with
    | _ :: value => some (name, some (String.ofList value))
    | [] => some (name, none)
  | _ => none

/-- Goes through flags in their short form, all of which only count or stop. -/
def readFlags (withVersion : Bool) : List Char → Except Stop Unit
  | [] => .ok ()
  | 'v' :: cs => readFlags withVersion cs
  | 'h' :: _ => .error .help
  | 'V' :: _ => .error (if withVersion then .version else .refused)
  | _ :: _ => .error .refused

namespace Sorted

/-- Adds an option with its value. -/
def addOption (s : Sorted) (shape : Shape) (name value : String) : Except Stop Sorted :=
  match shape.options.lookup name with
  | none => .error .refused
  | some accepts =>
    if (s.options.lookup name).isSome || !accepts value then .error .refused
    else .ok { s with options := s.options ++ [(name, value)] }

/-- Adds an option without a value. -/
def addSwitch (s : Sorted) (shape : Shape) (name : String) : Except Stop Sorted :=
  if !shape.switches.contains name || s.switches.contains name then .error .refused
  else .ok { s with switches := s.switches ++ [name] }

/-- Adds an argument that is no option. -/
def addOperand (s : Sorted) (shape : Shape) (arg : String) : Except Stop Sorted :=
  if s.operands.length < shape.operands then .ok { s with operands := s.operands ++ [arg] }
  else .error .refused

end Sorted

/-- Sorts the arguments of a command. -/
def sort (shape : Shape) : Sorted → List String → Except Stop Sorted
  | s, [] => .ok s
  | s, arg :: rest =>
    if arg = "--" then rest.foldlM (fun s arg => s.addOperand shape arg) s
    else match longOption? arg with
      | some ("help", none) => .error .help
      | some ("verbose", none) => sort shape s rest
      | some (name, some value) => do sort shape (← s.addOption shape name value) rest
      | some (name, none) =>
        if (shape.options.lookup name).isSome then
          match rest with
          | value :: rest =>
            if looksLikeOption value then .error .refused
            else do sort shape (← s.addOption shape name value) rest
          | [] => .error .refused
        else do sort shape (← s.addSwitch shape name) rest
      | none =>
        if looksLikeOption arg then do
          readFlags false (arg.toList.drop 1)
          sort shape s rest
        else do sort shape (← s.addOperand shape arg) rest

/-- A value that anything will do for. -/
def anyText (_ : String) : Bool :=
  true

/-- A value that has to be a path. -/
def isPath (s : String) : Bool :=
  !s.isEmpty

/-- A value that has to name a platform. -/
def isPlatform (s : String) : Bool :=
  (Platform.parse? s).isSome

/-- The overrides among sorted arguments. -/
def Sorted.overrides (s : Sorted) : Overrides where
  platform := (s.options.lookup "platform").bind Platform.parse?
  board := s.options.lookup "board"

/-- Reads the arguments of `init`. -/
def readInit (args : List String) : Except Stop Action := do
  let s ← sort { operands := 1 } {} args
  match s.operands with
  | [name] => .ok (.init name)
  | _ => .error .refused

/-- Reads the arguments of `generate`. -/
def readGenerate (args : List String) : Except Stop Action := do
  let shape : Shape :=
    { options :=
        [("out", isPath), ("workspace", isPath), ("platform", isPlatform), ("board", anyText)]
      switches := ["json"] }
  let s ← sort shape {} args
  .ok (.generate (s.options.lookup "out") (s.options.lookup "workspace") s.overrides
    (s.switches.contains "json"))

/-- Reads the arguments of `check`. -/
def readCheck (args : List String) : Except Stop Action := do
  let s ← sort { options := [("platform", isPlatform), ("board", anyText)] } {} args
  .ok (.check s.overrides)

/-- Reads the arguments of `target list`. -/
def readTargetList (args : List String) : Except Stop Action := do
  let _ ← sort {} {} args
  .ok .listTargets

/-- Reads the arguments of `target describe`. -/
def readTargetDescribe (args : List String) : Except Stop Action := do
  let s ← sort { options := [("format", anyText)], operands := 1 } {} args
  match s.operands with
  | [name] => .ok (.describeTarget name (s.options.lookup "format"))
  | _ => .error .refused

/-- Reads the arguments of `clean`. -/
def readClean (args : List String) : Except Stop Action := do
  let s ← sort { options := [("out", isPath)] } {} args
  .ok (.clean (s.options.lookup "out"))

/-- Whether a request for help is about a command that there is. -/
def isHelpTopic : List String → Bool
  | [] => true
  | ["target", sub] => ["list", "describe", "help"].contains sub
  | [name] => ["init", "generate", "check", "target", "clean", "help"].contains name
  | _ => false

/-- Answers a request for help about the command of the given names. -/
def readHelp (topic : List String) : Except Stop Action :=
  .error (if isHelpTopic topic then .help else .refused)

/-- Reads arguments up to the name of a command, and leaves the rest to the reader of that
command. Without such a name the command line is refused. -/
def dispatch (withVersion : Bool) (reader : String → Option (List String → Except Stop Action)) :
    List String → Except Stop Action
  | [] => .error .refused
  | arg :: rest =>
    match longOption? arg with
    | some ("verbose", none) => dispatch withVersion reader rest
    | some ("help", none) => .error .help
    | some ("version", none) => .error (if withVersion then .version else .refused)
    | some _ => .error .refused
    | none =>
      if looksLikeOption arg then do
        readFlags withVersion (arg.toList.drop 1)
        dispatch withVersion reader rest
      else match reader arg with
        | some read => read rest
        | none => .error .refused

/-- The readers of the commands below `target`. -/
def targetReader : String → Option (List String → Except Stop Action)
  | "list" => some readTargetList
  | "describe" => some readTargetDescribe
  | "help" => some fun topic => readHelp ("target" :: topic)
  | _ => none

/-- The readers of the commands. -/
def commandReader : String → Option (List String → Except Stop Action)
  | "init" => some readInit
  | "generate" => some readGenerate
  | "check" => some readCheck
  | "target" => some (dispatch false targetReader)
  | "clean" => some readClean
  | "help" => some readHelp
  | _ => none

/-- The action that a command line asks for. -/
def parse (args : List String) : Except Stop Action :=
  dispatch true commandReader args

end ReactorDeploy.Command
