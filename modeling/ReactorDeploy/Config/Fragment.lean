import ReactorDeploy.Text.Quoted

/-!
# Configuration fragments

A fragment is a list of lines for a configuration file in the style of Kconfig: comments, headings
and assignments of properties. Fragments are joined freely and written once.
-/

namespace ReactorDeploy.Config

/-- The value of a property. -/
inductive Value where
  | flag (b : Bool)
  | int (n : Int)
  /-- A text that is written in quotes. -/
  | str (s : String)
  /-- A text that is written as it is. -/
  | raw (s : String)
  deriving DecidableEq, Repr

/-- The written form of a value. -/
def Value.render : Value → String
  | .flag b => if b then "y" else "n"
  | .int n => toString n
  | .str s => Text.quoted s
  | .raw s => s

/-- A line of a fragment. -/
inductive Line where
  | comment (text : String)
  | blank
  /-- A title between empty lines, underlined with dashes. -/
  | heading (text : String)
  | property (key : String) (value : Value)
  deriving DecidableEq, Repr

/-- The written form of a line. -/
def Line.render : Line → String
  | .comment text => "# " ++ text ++ "\n"
  | .blank => "\n"
  | .heading text =>
    "\n# " ++ text ++ " #\n# " ++ String.ofList (List.replicate text.length '-') ++ " #\n\n"
  | .property key value => "CONFIG_" ++ key ++ "=" ++ value.render ++ "\n"

/-- The lines of a configuration file, or of a part of one. -/
abbrev Fragment := List Line

namespace Fragment

/-- A property that is on or off. -/
def flag (key : String) (b : Bool) : Line :=
  .property key (.flag b)

/-- A property with a number. -/
def int (key : String) (n : Int) : Line :=
  .property key (.int n)

/-- A property with a quoted text. -/
def str (key : String) (s : String) : Line :=
  .property key (.str s)

/-- A property with a text that is written as it is. -/
def raw (key : String) (s : String) : Line :=
  .property key (.raw s)

/-- A property that is written under a condition only. -/
def propertyIf (condition : Bool) (key : String) (value : Value) : Fragment :=
  if condition then [.property key value] else []

/-- The value of the first property of a name. -/
def get? (f : Fragment) (key : String) : Option Value :=
  f.findSome? fun
    | .property k value => if k = key then some value else none
    | _ => none

/-- The properties of a fragment with their written values, in order. -/
def assignments (f : Fragment) : List (String × String) :=
  f.filterMap fun
    | .property key value => some (key, value.render)
    | _ => none

/-- The written form of a fragment. -/
def render (f : Fragment) : String :=
  String.join (f.map Line.render)

end Fragment

end ReactorDeploy.Config
