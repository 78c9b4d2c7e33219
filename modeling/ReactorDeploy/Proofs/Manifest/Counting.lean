import ReactorDeploy.Proofs.Manifest.Check
import Mathlib.Data.List.Dedup

/-!
# How many problems a manifest has

The checks go through the federates with what came before in hand, and see each of them in one of
several ways. What they come to in number depends on the federates as a whole only: the errors are
counted by kind (`errorCount`), with one for every name and every first address beyond the distinct
ones, and so are the warnings (`warningCount`). A manifest is accepted just if the first count is
zero (`check_counts`).

Names and addresses are both compared with those met before them. What such a pass counts is the
repetitions in a list (`repetitions`), and those are what the list has beyond its distinct elements
(`repetitions_nil`).
-/

namespace ReactorDeploy

/-! ## Repetitions -/

section
variable {α : Type} [DecidableEq α]

/-- How many elements of a list were met before, in the list or among those met already. -/
def repetitions (met : List α) : List α → Nat
  | [] => 0
  | x :: xs => if x ∈ met then repetitions met xs + 1 else repetitions (x :: met) xs

/-- It does not matter in which order, or how often, the elements met already were met. -/
theorem repetitions_congr {seen met : List α} (h : ∀ y, y ∈ seen ↔ y ∈ met) (xs : List α) :
    repetitions seen xs = repetitions met xs := by
  induction xs generalizing seen met with
  | nil => rfl
  | cons x xs ih =>
    have hcons : ∀ y, y ∈ x :: seen ↔ y ∈ x :: met := fun y => by
      rw [List.mem_cons, List.mem_cons, h y]
    rw [repetitions, repetitions, ih h, ih hcons]
    simp only [h x]

/-- Nothing changes for an element that is met again. -/
theorem repetitions_cons_of_mem {x : α} {met : List α} (h : x ∈ met) (xs : List α) :
    repetitions (x :: met) xs = repetitions met xs :=
  repetitions_congr (fun _ => ⟨fun hy => (List.mem_cons.1 hy).elim (fun e => e ▸ h) id, .tail x⟩) xs

/-- Every element of a list is a repetition, or adds to the distinct ones. -/
theorem repetitions_add_length_dedup (met xs : List α) :
    repetitions met xs + (xs ++ met).dedup.length = xs.length + met.dedup.length := by
  induction xs generalizing met with
  | nil => simp [repetitions]
  | cons x xs ih =>
    rw [repetitions, List.cons_append, List.length_cons]
    by_cases hx : x ∈ met
    · have hmem : x ∈ xs ++ met := List.mem_append_right _ hx
      have := ih met
      rw [if_pos hx, List.dedup_cons_of_mem hmem]
      omega
    · have hperm : (x :: (xs ++ met)).dedup.length = (xs ++ x :: met).dedup.length :=
        (List.perm_middle.symm.dedup).length_eq
      have := ih (x :: met)
      rw [List.dedup_cons_of_notMem hx, List.length_cons] at this
      rw [if_neg hx, hperm]
      omega

/-- The repetitions in a list are what it has beyond its distinct elements. -/
theorem repetitions_nil (xs : List α) : repetitions [] xs = xs.length - xs.dedup.length := by
  have h := repetitions_add_length_dedup [] xs
  rw [List.append_nil, List.dedup_nil, List.length_nil] at h
  omega

end

/-- Whether a problem does not block generation. -/
def Problem.isWarning (p : Problem) : Bool :=
  p.severity == .warning

namespace Manifest

/-! ## Counts -/

/-- Whether a name cannot be that of one directory: a slash or a backslash is in it, or it stands
for the directory itself or the one above. -/
def leadsElsewhere (name : String) : Bool :=
  name.toList.contains '/' || name.toList.contains '\\' || name == "." || name == ".."

/-- Whether a name is neither blank nor leads elsewhere. -/
def isUsableName (name : String) : Bool :=
  !Text.allBlank name && !leadsElsewhere name

/-- The names of federates, as many times as they are given. -/
def federateNames (m : Manifest) : List String :=
  m.federates.map Federate.name

/-- The names of federates with nothing wrong about the name by itself. -/
def usableNames (m : Manifest) : List String :=
  m.federateNames.filter isUsableName

/-- The first well-formed IPv6 address of each federate that declares one. -/
def firstAddresses (m : Manifest) : List Net.Ipv6 :=
  m.federates.filterMap Federate.declaredIpv6?

/-- The number of errors in a manifest, by kind: a transport option without federates, names that
are blank, other names that lead elsewhere, and names and addresses beyond the distinct ones. -/
def errorCount (m : Manifest) : Nat :=
  (if m.target.netInterface.userSet && m.federates.isEmpty then 1 else 0) +
  m.federateNames.countP Text.allBlank +
  m.federateNames.countP (fun name => !Text.allBlank name && leadsElsewhere name) +
  (m.usableNames.length - m.usableNames.dedup.length) +
  (m.firstAddresses.length - m.firstAddresses.dedup.length)

/-- The number of warnings about a manifest: one for every federate that the constrained transport
does not suit, and one for every interface on that transport whose address is not IPv6. -/
def warningCount (m : Manifest) : Nat :=
  (if m.target.isConstrained then
    m.federates.countP fun f => f.resolvePlatform m.target != .zephyr else 0) +
  (m.federates.flatMap Federate.interfaces).countP fun i =>
    i.transport.isConstrained && i.ipv6?.isNone

/-! ## Counting problems -/

theorem countP_isError_transportProblems (m : Manifest) :
    m.transportProblems.countP Problem.isError =
      if m.target.netInterface.userSet && m.federates.isEmpty then 1 else 0 := by
  rw [transportProblems, isFederated, Bool.not_not]
  split <;> rfl

theorem countP_isWarning_transportProblems (m : Manifest) :
    m.transportProblems.countP Problem.isWarning = 0 := by
  rw [transportProblems]
  split <;> rfl

theorem isSinglePathComponent_eq (name : String) :
    isSinglePathComponent name = !leadsElsewhere name := by
  have hany : name.toList.any (fun c => c == '/' || c == '\\') =
      (name.toList.contains '/' || name.toList.contains '\\') := by
    rw [Bool.eq_iff_iff]
    simp [and_or_left, exists_or]
  rw [isSinglePathComponent, leadsElsewhere, hany]
  simp only [Bool.not_or, bne]

/-- The errors with names are the names that are blank, those that lead elsewhere, and the
repetitions among the others. -/
theorem countP_isError_nameProblems (taken names : List String) :
    (nameProblems taken names).countP Problem.isError =
      names.countP Text.allBlank +
        names.countP (fun name => !Text.allBlank name && leadsElsewhere name) +
        repetitions taken (names.filter isUsableName) := by
  induction names generalizing taken with
  | nil => rfl
  | cons name names ih =>
    rw [nameProblems, isSinglePathComponent_eq, List.countP_cons, List.countP_cons,
      List.filter_cons, isUsableName]
    cases Text.allBlank name with
    | true =>
      rw [if_pos rfl, List.countP_cons_of_pos rfl, ih]
      simp only [Bool.not_true, Bool.false_and, Bool.false_eq_true, if_true, if_false]
      omega
    | false =>
      cases leadsElsewhere name with
      | true =>
        simp only [Bool.not_true, Bool.not_false, Bool.and_false, Bool.and_true,
          Bool.false_eq_true, if_true, if_false]
        rw [List.countP_cons_of_pos rfl, ih]
        omega
      | false =>
        simp only [Bool.not_false, Bool.not_true, Bool.and_true, Bool.and_false,
          Bool.false_eq_true, if_true, if_false, List.contains_iff_mem, Nat.add_zero, repetitions]
        split
        · rw [List.countP_cons_of_pos rfl, ih]
          omega
        · rw [ih]

/-- No problem with a name is a warning. -/
theorem countP_isWarning_nameProblems (taken names : List String) :
    (nameProblems taken names).countP Problem.isWarning = 0 := by
  induction names generalizing taken with
  | nil => rfl
  | cons name names ih =>
    unfold nameProblems
    split
    · exact ih taken
    · split
      · exact ih taken
      · split
        · exact ih taken
        · exact ih (name :: taken)

/-! ### Federates one by one -/

/-- Nothing that is wrong with a federate by itself is an error. -/
theorem countP_isError_own (o : TargetOptions) (f : Federate) :
    (platformProblems o f ++ interfaceProblems f).countP Problem.isError = 0 := by
  refine List.countP_eq_zero.2 fun p hp => ?_
  rcases List.mem_append.1 hp with hp | hp
  · rw [platformProblems] at hp
    split at hp
    · rw [List.mem_singleton.1 hp]
      exact Bool.false_ne_true
    · cases hp
  · obtain ⟨i, -, rfl⟩ := List.mem_map.1 hp
    exact Bool.false_ne_true

/-- The warnings about one federate are about its platform and its interfaces. -/
theorem countP_isWarning_own (o : TargetOptions) (f : Federate) :
    (platformProblems o f ++ interfaceProblems f).countP Problem.isWarning =
      (if o.isConstrained && f.resolvePlatform o != .zephyr then 1 else 0) +
      f.interfaces.countP fun i => i.transport.isConstrained && i.ipv6?.isNone := by
  have hplatform : (platformProblems o f).countP Problem.isWarning =
      if o.isConstrained && f.resolvePlatform o != .zephyr then 1 else 0 := by
    rw [platformProblems]
    split <;> rfl
  have hinterfaces : (interfaceProblems f).countP Problem.isWarning =
      f.interfaces.countP fun i => i.transport.isConstrained && i.ipv6?.isNone := by
    rw [interfaceProblems, List.countP_map, List.countP_eq_length_filter (l := f.interfaces)]
    exact List.countP_eq_length.2 fun i _ => rfl
  rw [List.countP_append, hplatform, hinterfaces]

/-- An address is found among the declared ones just if it was declared. -/
theorem lookup_eq_none_iff {declared : List (Net.Ipv6 × String)} {x : Net.Ipv6} :
    declared.lookup x = none ↔ x ∉ declared.map Prod.fst := by
  rw [List.lookup_eq_none_iff, List.mem_map]
  exact ⟨fun h ⟨p, hp, hx⟩ => by simpa [hx] using h p hp,
    fun h p hp => bne_iff_ne.2 fun hx => h ⟨p, hp, hx.symm⟩⟩

theorem countP_isError_federateProblems (o : TargetOptions) (declared : List (Net.Ipv6 × String))
    (fs : List Federate) :
    (federateProblems o declared fs).countP Problem.isError =
      repetitions (declared.map Prod.fst) (fs.filterMap Federate.declaredIpv6?) := by
  induction fs generalizing declared with
  | nil => rfl
  | cons f fs ih =>
    rw [federateProblems]
    cases hx : f.declaredIpv6? with
    | none =>
      dsimp only
      rw [List.countP_append, countP_isError_own, ih, List.filterMap_cons_none hx, Nat.zero_add]
    | some x =>
      dsimp only
      rw [List.countP_append, List.countP_append, countP_isError_own, ih,
        List.filterMap_cons_some hx, repetitions]
      cases hlookup : declared.lookup x with
      | none =>
        rw [if_neg (lookup_eq_none_iff.1 hlookup), List.countP_nil, Nat.zero_add]
        rfl
      | some first =>
        have hmem : x ∈ declared.map Prod.fst := by
          by_contra hnew
          rw [lookup_eq_none_iff.2 hnew] at hlookup
          cases hlookup
        rw [if_pos hmem, List.countP_cons_of_pos rfl, List.countP_nil, List.map_cons,
          repetitions_cons_of_mem hmem]
        omega

/-- A federate adds its own problems, and perhaps an address that was declared before. -/
theorem exists_federateProblems_cons (o : TargetOptions) (declared : List (Net.Ipv6 × String))
    (f : Federate) (fs : List Federate) :
    ∃ twice declared', twice.countP Problem.isWarning = 0 ∧
      federateProblems o declared (f :: fs) =
        platformProblems o f ++ interfaceProblems f ++ twice ++ federateProblems o declared' fs := by
  rw [federateProblems]
  cases f.declaredIpv6? with
  | none => exact ⟨[], declared, rfl, by rw [List.append_nil]⟩
  | some x =>
    refine ⟨_, (x, f.name) :: declared, ?_, rfl⟩
    cases declared.lookup x <;> rfl

/-- The warnings about federates are those about each of them. -/
theorem countP_isWarning_federateProblems (o : TargetOptions)
    (declared : List (Net.Ipv6 × String)) (fs : List Federate) :
    (federateProblems o declared fs).countP Problem.isWarning =
      (if o.isConstrained then fs.countP fun f => f.resolvePlatform o != .zephyr else 0) +
      (fs.flatMap Federate.interfaces).countP fun i =>
        i.transport.isConstrained && i.ipv6?.isNone := by
  induction fs generalizing declared with
  | nil => cases o.isConstrained <;> rfl
  | cons f fs ih =>
    obtain ⟨twice, declared', htwice, hproblems⟩ := exists_federateProblems_cons o declared f fs
    rw [hproblems, List.countP_append, List.countP_append, countP_isWarning_own, htwice, ih,
      List.flatMap_cons, List.countP_append, List.countP_cons]
    cases o.isConstrained with
    | false =>
      simp only [Bool.false_and, Bool.false_eq_true, if_false]
      omega
    | true =>
      simp only [Bool.true_and, if_true]
      omega

/-! ## The whole manifest -/

theorem countP_isError_problems (m : Manifest) :
    m.problems.countP Problem.isError = m.errorCount := by
  rw [problems, List.countP_append, List.countP_append, countP_isError_transportProblems,
    countP_isError_nameProblems, countP_isError_federateProblems, List.map_nil, repetitions_nil,
    repetitions_nil, ← Nat.add_assoc, ← Nat.add_assoc]
  rfl

theorem countP_isWarning_problems (m : Manifest) :
    m.problems.countP Problem.isWarning = m.warningCount := by
  rw [problems, List.countP_append, List.countP_append, countP_isWarning_transportProblems,
    countP_isWarning_nameProblems, countP_isWarning_federateProblems, Nat.zero_add]
  rfl

/-- Every problem is an error or a warning. -/
theorem countP_isError_add_countP_isWarning (problems : List Problem) :
    problems.countP Problem.isError + problems.countP Problem.isWarning = problems.length := by
  have hneither : ∀ p : Problem, p.isWarning = !p.isError := by
    intro p
    cases p <;> rfl
  rw [funext hneither, List.length_eq_countP_add_countP Problem.isError]
  simp

/-- A manifest is accepted just if no problem with it counts as an error. -/
theorem check_eq (m : Manifest) :
    m.check = if m.errorCount = 0 then .ok m.problems else .error ⟨m.name, m.problems⟩ := by
  rw [check, ← countP_isError_problems]
  by_cases herror : m.problems.any Problem.isError = true
  · have hpos : 0 < m.problems.countP Problem.isError :=
      List.countP_pos_iff.2 (List.any_eq_true.1 herror)
    rw [if_pos herror, if_neg (by omega)]
  · have hzero : m.problems.countP Problem.isError = 0 :=
      List.countP_eq_zero.2 fun p hp hisError => herror (List.any_eq_true.2 ⟨p, hp, hisError⟩)
    rw [if_neg herror, if_pos hzero]

/-- **What a check comes to in number.** A manifest is accepted just if its error count is zero, and
then what is reported are as many warnings as its warning count says. Otherwise it is refused, with
as many errors as its error count says, which the message quotes, and its warnings beside them. -/
theorem check_counts (m : Manifest) :
    match m.check with
    | .ok warnings =>
      m.errorCount = 0 ∧
      warnings.countP Problem.isWarning = m.warningCount ∧
      warnings.length = m.warningCount
    | .error invalid =>
      0 < m.errorCount ∧
      invalid.project = m.name ∧
      invalid.problems.countP Problem.isError = m.errorCount ∧
      invalid.problems.countP Problem.isWarning = m.warningCount ∧
      invalid.problems.length = m.errorCount + m.warningCount ∧
      invalid.message =
        toString m.errorCount ++ " error(s) in manifest of '" ++ m.name ++ "'" := by
  have herrors := m.countP_isError_problems
  have hwarnings := m.countP_isWarning_problems
  have hlength := countP_isError_add_countP_isWarning m.problems
  rw [herrors, hwarnings] at hlength
  rw [check_eq]
  split_ifs with hzero
  · exact ⟨hzero, hwarnings, by omega⟩
  · refine ⟨by omega, rfl, herrors, hwarnings, hlength.symm, ?_⟩
    rw [Invalid.message, herrors]

/-- A blank name, one that leads elsewhere, one taken twice and one address under two spellings are
an error each; the transport does not suit the four federates, nor does the last address suit it. -/
example :
    let m : Manifest := {
      name := "App"
      target := { netInterface := .user .sicslowpan }
      federates := [
        { name := " " },
        { name := "a/b" },
        { name := "c", interfaces := [⟨"fd01::9", .ethernet⟩] },
        { name := "c", interfaces := [⟨"FD01:0::9", .ethernet⟩, ⟨"10.0.0.2", .sicslowpan⟩] }] }
    m.errorCount = 4 ∧ m.warningCount = 5 := by
  decide +kernel

end Manifest

end ReactorDeploy
