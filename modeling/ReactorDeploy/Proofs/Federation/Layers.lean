import ReactorDeploy.Proofs.Federation.Artifacts

/-!
# The generated layer of a unit's configuration

Whatever toolchain a registry assigns to a unit, exactly one of its generators writes the system
configuration, and what it writes is composed of one generated layer (`layers_eq`). On the
constrained transport that layer assigns the address of the unit, once
(`valuesOf_address`).
-/

namespace ReactorDeploy

namespace Config.Fragment

/-- The values that a fragment assigns to a property, in order. -/
def valuesOf (f : Fragment) (key : String) : List Value :=
  f.filterMap fun
    | .property k value => if k = key then some value else none
    | _ => none

theorem valuesOf_append (f g : Fragment) (key : String) :
    valuesOf (f ++ g) key = valuesOf f key ++ valuesOf g key :=
  List.filterMap_append

end Config.Fragment

open Config (Fragment)
open Config.Fragment (valuesOf valuesOf_append)

/-- The property that holds the IPv6 address of a unit. -/
def addressKey : String :=
  "NET_CONFIG_MY_IPV6_ADDR"

/-- The generated layer of the system configuration that a generator writes, if it writes any. -/
def Generator.layer? (u : Deployment) : Generator → Option Fragment
  | .entryPoint _ => none
  | .nativeBuild _ => some u.systemConfig
  | .zephyr => some (Zephyr.generatedConfig u)

/-- The generated layers of the system configuration of a unit. -/
def PlannedUnit.layers (p : PlannedUnit) (s : Setup) (r : Request) : List Fragment :=
  (p.toolchain s r).generators.filterMap (Generator.layer? (p.deployment s r))

/-- The configuration file of a unit is composed of the layer that the generator writes, with the
layer of the board and, where the layout has no file for it, the user's own file below. -/
theorem Generator.mem_artifacts_of_layer? {g : Generator} {u : Deployment} {layer : Fragment}
    (h : g.layer? u = some layer) :
    ∃ overlay, { path := u.layout.generatedFile
                 content := Config.mergeOverlay (Config.compose u.order layer u.boardConfig?)
                   overlay u.layout.generatedFile : Artifact } ∈ g.artifacts u := by
  cases g with
  | entryPoint style => cases h
  | nativeBuild b =>
    cases h
    exact ⟨u.workspace u.layout.generatedFile, .tail _ (.tail _ (.head _))⟩
  | zephyr =>
    cases h
    exact ⟨none, .tail _ (.head _)⟩

/-- Of the generators of a unit exactly one writes the system configuration. -/
theorem PlannedUnit.layers_eq (p : PlannedUnit) (s : Setup) (r : Request) :
    p.layers s r = [(p.deployment s r).systemConfig] ∨
      p.layers s r = [Zephyr.generatedConfig (p.deployment s r)] := by
  unfold PlannedUnit.layers
  rcases p.toolchain_cases s r with ⟨tooling, file, h⟩ | h
  · rw [h.generators]
    exact .inl rfl
  · rw [h.generators]
    exact .inr rfl

/-- The configuration file composed of the generated layer is an artifact of the unit. -/
theorem PlannedUnit.mem_artifacts_of_layers {p : PlannedUnit} {s : Setup} {r : Request}
    {layer : Fragment} (h : p.layers s r = [layer]) :
    ∃ overlay, { path := (p.deployment s r).layout.generatedFile
                 content := Config.mergeOverlay
                   (Config.compose s.order layer (p.deployment s r).boardConfig?) overlay
                   (p.deployment s r).layout.generatedFile : Artifact } ∈
      (p.artifacts s r).artifacts := by
  have hlayer : layer ∈ p.layers s r := h ▸ List.mem_singleton_self layer
  obtain ⟨g, hg, hlayer⟩ := List.mem_filterMap.1 hlayer
  obtain ⟨overlay, hartifact⟩ := Generator.mem_artifacts_of_layer? hlayer
  rw [p.artifacts_eq_generated]
  exact ⟨overlay, List.mem_flatMap.2 ⟨g, hg, hartifact⟩⟩

/-! ## The address of a unit -/

/-- What a platform needs is about the tasks of its operating system only. -/
theorem valuesOf_platformConfig (platform : Platform) {key : String}
    (h : key ∉ ["LF_MAIN_TASK_STACK_SIZE", "ESP_MAIN_TASK_STACK_SIZE", "FREERTOS_HZ"]) :
    valuesOf (Deployment.platformConfig platform) key = [] := by
  simp only [List.mem_cons, List.not_mem_nil, or_false, not_or] at h
  obtain ⟨hlf, hesp, hhz⟩ := h
  cases platform <;>
    simp [Deployment.platformConfig, valuesOf, Config.Fragment.int, Ne.symm hlf, Ne.symm hesp,
      Ne.symm hhz]

/-- The configuration of a native unit assigns its address once. -/
theorem valuesOf_systemConfig {u : Deployment} {x : Net.Ipv6} (h : u.network = .ipv6 x) :
    valuesOf u.systemConfig addressKey = [.str x.text] := by
  rw [Deployment.systemConfig, valuesOf_append, valuesOf_append,
    valuesOf_platformConfig _ (by decide), Deployment.networkConfig, h]
  rfl

/-- The configuration of a unit on Zephyr assigns its address once. -/
theorem valuesOf_generatedConfig {u : Deployment} {x : Net.Ipv6} (h : u.network = .ipv6 x) :
    valuesOf (Zephyr.generatedConfig u) addressKey = [.str x.text] := by
  rw [Zephyr.generatedConfig, h]
  rfl

/-- The one generated layer of a unit assigns the address of the unit, and does so once. -/
theorem PlannedUnit.valuesOf_address {p : PlannedUnit} {x : Net.Ipv6} (h : p.network = .ipv6 x)
    (s : Setup) (r : Request) :
    ∃ layer, p.layers s r = [layer] ∧ valuesOf layer addressKey = [.str x.text] := by
  have hnetwork : (p.deployment s r).network = .ipv6 x := h
  rcases p.layers_eq s r with hlayers | hlayers
  · exact ⟨_, hlayers, valuesOf_systemConfig hnetwork⟩
  · exact ⟨_, hlayers, valuesOf_generatedConfig hnetwork⟩

end ReactorDeploy
