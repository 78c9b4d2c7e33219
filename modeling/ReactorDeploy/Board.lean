import ReactorDeploy.Config.Fragment
import ReactorDeploy.Text.Blank
import ReactorDeploy.Text.Lowercase

/-!
# Boards with needs of their own

Some boards need configuration beyond that of their platform. A table lists them under the names
they go by; blanks around a name and the case of its letters do not matter.
-/

namespace ReactorDeploy.Board

/-- The names of some boards, and the configuration that each of them needs. -/
structure Entry where
  boards : List String
  fragment : Config.Fragment
  deriving DecidableEq, Repr

/-- The form in which board names are compared. -/
def canonicalName (name : String) : String :=
  Text.lowercase (Text.trim name)

/-- A table of boards, in the order in which configuration is applied. -/
abbrev Table := List Entry

namespace Table

/-- The table with one more entry. -/
def withEntry (t : Table) (boards : List String) (fragment : Config.Fragment) : Table :=
  t ++ [⟨boards.map canonicalName, fragment⟩]

/-- The configuration of a board: that of every entry with its name, in table order. -/
def configFor? (t : Table) (board : Option String) : Option Config.Fragment := do
  let name := canonicalName (← board)
  let found := t.filter fun e => e.boards.contains name
  if found.isEmpty then none else some (found.flatMap Entry.fragment)

/-- The names in the table. -/
def knownBoards (t : Table) : List String :=
  t.flatMap Entry.boards

end Table

/-- The boards around the RP2040 and RP2350. -/
def picoBoards : List String :=
  ["rpi_pico", "rpi_pico2", "rpi_pico_w", "rpi_pico2_w", "raspberrypi_pico", "w5500_evb_pico"]

open Config.Fragment (flag)

/-- What the boards around the RP2040 and RP2350 need: a serial console and a source of
randomness. -/
def picoFragment : Config.Fragment :=
  [.comment "Pico specific configuration",
    .blank,
    flag "SERIAL" true,
    flag "UART_CONSOLE" true,
    flag "STDOUT_CONSOLE" true,
    flag "ENTROPY_GENERATOR" true,
    flag "TEST_RANDOM_GENERATOR" true]

/-- The table of the boards known from the start. -/
def builtin : Table :=
  Table.withEntry [] picoBoards picoFragment

end ReactorDeploy.Board
