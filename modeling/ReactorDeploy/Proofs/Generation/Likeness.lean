import ReactorDeploy.Proofs.Config.Composition
import ReactorDeploy.Proofs.Federation.Addresses
import ReactorDeploy.Proofs.Generation.Outcome
import ReactorDeploy.Proofs.Generation.Overlay
import ReactorDeploy.Proofs.Net.NormalForm
import ReactorDeploy.Proofs.Text.Quoted

/-!
# Where federates on Zephyr differ

On the constrained transport the generated layer of a unit on Zephyr knows nothing of the federate
but its address, which it has on a line of its own (`exists_template_sicslowpanConfig`). Units for
the same board therefore have configuration files that follow one template, with the address of the
unit on the open lines, and the other files that Zephyr reads do not differ at all
(`zephyr_units_differ_in_address_lines`).
-/

namespace ReactorDeploy

open Config (Fragment LayerOrder Template contribution? compose)
open Net (Ipv6)
open Text (lines)

/-! ## The line of the address -/

/-- The line that assigns an address to a unit. -/
def addressLine (x : Ipv6) : String :=
  "CONFIG_NET_CONFIG_MY_IPV6_ADDR=\"" ++ x.text ++ "\""

/-- Nothing in a written address ends a quoted text or a line. -/
theorem Net.Ipv6.plain_of_mem_text (x : Ipv6) :
    ∀ c ∈ x.text.toList, (c ≠ '"' ∧ c ≠ '\\') ∧ c ≠ '\n' := by
  have hdigit : ∀ d < 16, (d.digitChar ≠ '"' ∧ d.digitChar ≠ '\\') ∧ d.digitChar ≠ '\n' := by
    decide
  exact forall_mem_text (P := fun c => (c ≠ '"' ∧ c ≠ '\\') ∧ c ≠ '\n') hdigit (by decide)
    (by decide) x

/-- The property for the address of a unit is written as the line that assigns it. -/
theorem render_address (x : Ipv6) :
    (Fragment.str addressKey x.text).render = addressLine x ++ "\n" := by
  have hquoted : Text.quoted x.text = "\"" ++ x.text ++ "\"" :=
    Text.quoted_eq fun c hc => (x.plain_of_mem_text c hc).1
  show "CONFIG_" ++ addressKey ++ "=" ++ Text.quoted x.text ++ "\n" = _
  rw [hquoted]
  unfold addressLine
  generalize x.text = text
  simp only [String.append_assoc]
  rfl

theorem lines_addressLine (x : Ipv6) : lines (addressLine x) = [addressLine x] := by
  have htext : '\n' ∉ x.text.toList := fun hmem => (x.plain_of_mem_text _ hmem).2 rfl
  refine Text.lines_of_notMem ?_
  unfold addressLine
  generalize x.text = text at htext ⊢
  simpa using htext

/-! ## The generated layer -/

namespace Zephyr

/-- The generated layer on the constrained transport has the property for the address in one place,
between others, and nothing else in it depends on the address. -/
theorem exists_sicslowpanConfig_eq (logging : LogLevel) :
    ∃ before key value after, before ≠ [] ∧ ∀ x, sicslowpanConfig x logging =
      before ++ Fragment.str addressKey x.text :: .property key value :: after :=
  -- The address has 39 lines before it.
  ⟨(sicslowpanConfig ⟨0, 0⟩ logging).take 39, _, _, (sicslowpanConfig ⟨0, 0⟩ logging).drop 41,
    nofun, fun _ => rfl⟩

/-- The generated layers on the constrained transport follow one template, with the line of the
address open. -/
theorem exists_template_sicslowpanConfig (logging : LogLevel) :
    ∃ t : Template, t.count none = 1 ∧ ∀ x, ∃ text,
      contribution? (sicslowpanConfig x logging) = some text ∧
        lines text = t.fill (addressLine x) := by
  obtain ⟨before, key, value, after, hbefore, hconfig⟩ := exists_sicslowpanConfig_eq logging
  obtain ⟨front, hfront⟩ := Fragment.exists_render hbefore
  generalize hback : Text.stripEnd (· == '\n') (Fragment.render (.property key value :: after)) =
    back
  have hne : back ≠ "" := hback ▸ Fragment.stripEnd_render_property_ne_empty key value after
  refine ⟨Template.ofText front ++ none :: Template.ofText back, ?_, fun x =>
    ⟨front ++ "\n" ++ (addressLine x ++ "\n" ++ back), ?_, ?_⟩⟩
  · rw [List.count_append, List.count_cons_self, Template.count_none_ofText,
      Template.count_none_ofText]
  · have hstrip : Text.stripEnd (· == '\n') (Fragment.render (sicslowpanConfig x logging)) =
        front ++ "\n" ++ (addressLine x ++ "\n" ++ back) := by
      rw [hconfig, Fragment.render_append, Fragment.render_cons, hfront, render_address,
        ← String.append_assoc, Text.stripEnd_append_of_ne_empty _ (hback ▸ hne), hback,
        String.append_assoc]
    unfold contribution?
    rw [hstrip]
    simp
  · rw [Template.fill_append, Template.fill_none_cons, Template.fill_ofText,
      Template.fill_ofText, Text.lines_append, Text.lines_append, lines_addressLine]
    rfl

/-- Files composed of such layers follow one template, with an open line for every generated layer
in the order. -/
theorem exists_template_compose (order : LayerOrder) (logging : LogLevel)
    (board : Option Fragment) :
    ∃ t : Template, t.count none = order.count .generated ∧ ∀ x,
      lines (compose order (sicslowpanConfig x logging) board) = t.fill (addressLine x) := by
  obtain ⟨t, hcount, hlayer⟩ := exists_template_sicslowpanConfig logging
  refine ⟨.composed order t (board.bind contribution?), ?_, fun x => ?_⟩
  · rw [Template.count_none_composed, hcount, Nat.mul_one]
  · obtain ⟨text, htext, hlines⟩ := hlayer x
    exact Template.lines_compose_of_fill htext hlines order board

end Zephyr

/-! ## Units on Zephyr -/

section
variable {p q : PlannedUnit} {s : Setup} {r : Request}

namespace PlannedUnit

/-- With the toolchains that there are from the start, a unit for Zephyr is left to its tooling. -/
theorem buildsOnZephyr_of_builtin (hregistry : s.registry = .builtin)
    (hplatform : p.platform r = .zephyr) : (p.toolchain s r).BuildsOnZephyr := by
  unfold toolchain
  rw [hregistry, hplatform]
  exact ⟨rfl, rfl, rfl, rfl⟩

/-- Beside their configuration, units on Zephyr have the same files for Zephyr to read. -/
theorem get?_eq_of_zephyr (hp : (p.toolchain s r).BuildsOnZephyr)
    (hq : (q.toolchain s r).BuildsOnZephyr) :
    ∀ file ∈ ["Kconfig", "prj.conf", "app.overlay"],
      (p.artifacts s r).get? file = (q.artifacts s r).get? file := by
  intro file hfile
  rcases List.mem_cons.1 hfile with rfl | hcopied
  · exact (get?_kconfig_of_zephyr hp).trans (get?_kconfig_of_zephyr hq).symm
  · have hpfile : p.Copies s r file := copies_of_zephyr hp hcopied
    have hqfile : q.Copies s r file := copies_of_zephyr hq hcopied
    exact hpfile.trans hqfile.symm

/-- The configuration of a unit on Zephyr, on the constrained transport: the layer is that of the
address. -/
theorem generatedConfig_deployment {x : Ipv6} (h : p.network = .ipv6 x) (s : Setup) (r : Request) :
    Zephyr.generatedConfig (p.deployment s r) =
      Zephyr.sicslowpanConfig x r.manifest.target.logging.value := by
  have hnetwork : (p.deployment s r).network = .ipv6 x := h
  rw [Zephyr.generatedConfig, hnetwork]
  rfl

end PlannedUnit

/-- **Federates on Zephyr differ in the lines of their addresses only.** When a federation on the
constrained transport is generated with the toolchains that there are from the start, whatever the
boards, the order of layers and the workspace, any two units for Zephyr that have the same board
selected have configuration files that follow one template. It has as many open lines as the order
has generated layers, and on each of them either file assigns the address of its unit, as its
generated layer does once. The other files that Zephyr reads are the same for both, or neither has
them. -/
theorem zephyr_units_differ_in_address_lines {n : Numbering} {out : GenerationOutput}
    (hregistry : s.registry = .builtin) (hfederated : r.manifest.isFederated)
    (hconstrained : r.manifest.target.isConstrained) (h : (generate s n r).1 = .ok out) :
    ∃ ps, r.manifest.Planned n ps ∧ out.units = ps.map (fun p => p.report s r) ∧
      ∀ p ∈ ps, ∀ q ∈ ps, p.platform r = .zephyr → q.platform r = .zephyr →
        (p.deployment s r).selectedBoard? = (q.deployment s r).selectedBoard? →
        (∃ template : Template, template.count none = s.order.count .generated ∧
          ∀ u ∈ [p, q], ∃ x layer text,
            (u.report s r).address = some x ∧ u.layers s r = [layer] ∧
            Fragment.valuesOf layer "NET_CONFIG_MY_IPV6_ADDR" = [.str x.text] ∧
            (u.artifacts s r).get? "prj_lf.conf" =
              some { path := "prj_lf.conf", content := text } ∧
            lines text = template.map fun line => line.getD (addressLine x)) ∧
        ∀ file ∈ ["Kconfig", "prj.conf", "app.overlay"],
          (p.artifacts s r).get? file = (q.artifacts s r).get? file := by
  obtain ⟨ps, hplanned, rfl⟩ := exists_planned h
  refine ⟨ps, hplanned, GenerationOutput.units_ofUnits _ _ _ _,
    fun p hp q hq hpzephyr hqzephyr hboard => ?_⟩
  have hpbuilds := PlannedUnit.buildsOnZephyr_of_builtin hregistry hpzephyr
  have hqbuilds := PlannedUnit.buildsOnZephyr_of_builtin hregistry hqzephyr
  refine ⟨?_, PlannedUnit.get?_eq_of_zephyr hpbuilds hqbuilds⟩
  obtain ⟨template, hcount, hfill⟩ := Zephyr.exists_template_compose s.order
    r.manifest.target.logging.value (p.deployment s r).boardConfig?
  -- Either unit has the board layer of the first one, since their boards are the same.
  have hunit : ∀ u ∈ ps, (u.toolchain s r).BuildsOnZephyr →
      (u.deployment s r).selectedBoard? = (p.deployment s r).selectedBoard? → ∃ x layer text,
        (u.report s r).address = some x ∧ u.layers s r = [layer] ∧
        Fragment.valuesOf layer "NET_CONFIG_MY_IPV6_ADDR" = [.str x.text] ∧
        (u.artifacts s r).get? "prj_lf.conf" = some { path := "prj_lf.conf", content := text } ∧
        lines text = template.map fun line => line.getD (addressLine x) := by
    intro u hu hbuilds hselected
    obtain ⟨x, hnetwork⟩ := hplanned.exists_address hfederated hconstrained hu
    obtain ⟨layer, hlayers, hvalues⟩ := PlannedUnit.valuesOf_address hnetwork s r
    have haddress : (u.report s r).address = some x := congrArg Network.address? hnetwork
    have hconfig : (u.deployment s r).boardConfig? = (p.deployment s r).boardConfig? :=
      congrArg s.boards.configFor? hselected
    refine ⟨x, layer, _, haddress, hlayers, hvalues, PlannedUnit.get?_config_of_zephyr hbuilds, ?_⟩
    rw [PlannedUnit.generatedConfig_deployment hnetwork, hconfig]
    exact hfill x
  refine ⟨template, hcount, fun u hu => ?_⟩
  rcases List.mem_pair.1 hu with rfl | rfl
  · exact hunit u hp hpbuilds rfl
  · exact hunit u hq hqbuilds hboard.symm

end

/-- The configuration files of the first two federates of the example have the same lines but for
one, which is that of the address. -/
theorem overlapping_units_differ_in_address_line :
    ∃ out, (generate {} .perPass overlappingRequest).1 = .ok out ∧
      ∃ p q : PlannedUnit, p.report {} overlappingRequest ∈ out.units ∧
        q.report {} overlappingRequest ∈ out.units ∧
        (p.report {} overlappingRequest).federate = some "a" ∧
        (q.report {} overlappingRequest).federate = some "b" ∧
        ∃ template : Template, template.count none = 1 ∧ ∀ u ∈ [p, q], ∃ x text,
          (u.report {} overlappingRequest).address = some x ∧
          (u.artifacts {} overlappingRequest).get? "prj_lf.conf" =
            some { path := "prj_lf.conf", content := text } ∧
          lines text = template.map fun line => line.getD (addressLine x) := by
  have hout := generate_overlapping {}
  obtain ⟨ps, hplanned, hunits, hunit⟩ :=
    zephyr_units_differ_in_address_lines (r := overlappingRequest) rfl rfl rfl hout
  have hfirst : overlapping.federates[0] ∈ overlapping.federates := List.getElem_mem _
  have hsecond : overlapping.federates[1] ∈ overlapping.federates := List.getElem_mem _
  obtain ⟨p, hp, hprole⟩ := hplanned.exists_federate rfl hfirst
  obtain ⟨q, hq, hqrole⟩ := hplanned.exists_federate rfl hsecond
  have hpplatform : p.platform overlappingRequest = .zephyr := by
    rw [PlannedUnit.platform, hprole]
    rfl
  have hqplatform : q.platform overlappingRequest = .zephyr := by
    rw [PlannedUnit.platform, hqrole]
    rfl
  have hboard : (p.deployment {} overlappingRequest).selectedBoard? =
      (q.deployment {} overlappingRequest).selectedBoard? := by
    simp only [Deployment.selectedBoard?, Deployment.federateBoard?, PlannedUnit.deployment,
      hprole, hqrole]
    rfl
  obtain ⟨⟨template, hcount, hfiles⟩, -⟩ := hunit p hp q hq hpplatform hqplatform hboard
  have hfederate : ∀ u : PlannedUnit,
      (u.report {} overlappingRequest).federate = u.role.federate?.map Federate.name :=
    fun _ => rfl
  refine ⟨_, hout, p, q, ?_, ?_, ?_, ?_, template, hcount, fun u hu => ?_⟩
  · exact hunits ▸ List.mem_map_of_mem hp
  · exact hunits ▸ List.mem_map_of_mem hq
  · rw [hfederate, hprole]
    rfl
  · rw [hfederate, hqrole]
    rfl
  · obtain ⟨x, -, text, haddress, -, -, hget, hlines⟩ := hfiles u hu
    exact ⟨x, text, haddress, hget, hlines⟩

end ReactorDeploy
