import ReactorDeploy.Text.Lowercase

/-!
# Platforms

The execution platforms that a deployment unit can be generated for. `auto` is a request to take
the platform of the level above; it is resolved before anything is generated.
-/

namespace ReactorDeploy

/-- An execution platform, or the request to take the one of the level above. -/
inductive Platform where
  | native
  | freeRtos
  | espIdf
  | zephyr
  | rp2040
  | riot
  | auto
  deriving DecidableEq, Repr, Inhabited

namespace Platform

/-- The platforms that units are generated for, in their usual order. -/
def concrete : List Platform :=
  [.native, .freeRtos, .espIdf, .zephyr, .rp2040, .riot]

/-- The position of a platform in the usual order, in which `auto` comes last. -/
def rank : Platform → Nat
  | .native => 0
  | .freeRtos => 1
  | .espIdf => 2
  | .zephyr => 3
  | .rp2040 => 4
  | .riot => 5
  | .auto => 6

/-- The name of a platform in manifests. -/
def name : Platform → String
  | .native => "native"
  | .freeRtos => "freertos"
  | .espIdf => "espidf"
  | .zephyr => "zephyr"
  | .rp2040 => "rp2040"
  | .riot => "riot"
  | .auto => "auto"

/-- The platform that a manifest names, by its name or its alternative name. -/
def ofName? (s : String) : Option Platform :=
  match s with
  | "native" | "posix" => some .native
  | "freertos" | "free-rtos" => some .freeRtos
  | "espidf" | "esp-idf" => some .espIdf
  | "zephyr" => some .zephyr
  | "rp2040" | "pico" => some .rp2040
  | "riot" => some .riot
  | "auto" => some .auto
  | _ => none

/-- The platform that a user names, who may use capitals where a manifest may not. -/
def parse? (s : String) : Option Platform :=
  ofName? (Text.lowercase s)

/-- The name by which the runtime's build support knows a platform. -/
def buildName : Platform → String
  | .native | .auto => "POSIX"
  | .freeRtos => "FREERTOS"
  | .espIdf => "ESP_IDF"
  | .zephyr => "ZEPHYR"
  | .rp2040 => "PICO"
  | .riot => "RIOT"

/-- One line about a platform, for people. -/
def description : Platform → String
  | .native => "Native POSIX host (CMake)"
  | .freeRtos => "FreeRTOS task entry on the common CMake path"
  | .espIdf => "Espressif ESP-IDF project"
  | .zephyr => "Zephyr RTOS (west/CMake, prj.conf, Kconfig)"
  | .rp2040 => "Raspberry Pi RP2040 SDK on the common CMake path"
  | .riot => "RIOT OS on the common CMake path"
  | .auto => "Resolved to the application-wide platform"

/-- The platform that `p` stands for where the level above has `above`: itself, or else that of
the level above, or else the native one. -/
def resolve (p above : Platform) : Platform :=
  match p, above with
  | .auto, .auto => .native
  | .auto, other => other
  | other, _ => other

/-- A manifest's name for a platform reads back as that platform. -/
theorem ofName?_name (p : Platform) : ofName? p.name = some p := by
  cases p <;> rfl

end Platform

end ReactorDeploy
