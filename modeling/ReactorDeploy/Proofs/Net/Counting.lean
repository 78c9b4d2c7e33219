import ReactorDeploy.Proofs.Net.Allocation
import ReactorDeploy.Proofs.Net.LetterCase
import Mathlib.Data.List.DropRight

/-!
# Where an allocator stands

The state of an allocator is a function of what happened to it since the last reset. Its counter
stands right behind the greatest interface identifier in use in its network, and it has reserved
the normal forms of what is in use (`Stands`); every step keeps to that (`Stands.perform`).

A marked text that denotes no address is reserved too, as its lower-case form. That is the written
form of no address (`normalForm_eq_text_iff`), so it never stands in the way of one, and the
candidate at the counter is always free (`Stands.not_taken`).
-/

namespace ReactorDeploy.Net.Allocator

/-! ## Successors -/

theorem toNat_max (m n : UInt64) : (max m n).toNat = max m.toNat n.toNat := by
  show (if m ≤ n then n else m).toNat = max m.toNat n.toNat
  split
  · next h =>
    rw [UInt64.le_iff_toNat_le] at h
    omega
  · next h =>
    rw [UInt64.le_iff_toNat_le] at h
    omega

/-- The greater of two numbers is the second one if that is no less. -/
theorem max_eq_right {m n : UInt64} (h : m ≤ n) : max m n = n := by
  rw [UInt64.le_iff_toNat_le] at h
  rw [← UInt64.toNat_inj, toNat_max]
  omega

theorem max_eq_left {m n : UInt64} (h : n ≤ m) : max m n = m := by
  rw [UInt64.le_iff_toNat_le] at h
  rw [← UInt64.toNat_inj, toNat_max]
  omega

/-- A counter behind one number that is moved past another one stands behind the greater of the
two. -/
theorem bind_successor? (m n : UInt64) :
    ((successor? m).bind fun counter => (successor? n).map fun past => max past counter) =
      successor? (max m n) := by
  cases hm : successor? m with
  | none =>
    rw [max_eq_left (le_of_successor?_eq_none hm), hm]
    rfl
  | some counter =>
    cases hn : successor? n with
    | none =>
      rw [max_eq_right (le_of_successor?_eq_none hn), hn]
      rfl
    | some past =>
      have hcounter := toNat_of_successor? hm
      have hpast := toNat_of_successor? hn
      rcases UInt64.le_total m n with hle | hle
      · rw [max_eq_right hle, hn]
        rw [UInt64.le_iff_toNat_le] at hle
        exact congrArg some (max_eq_left (UInt64.le_iff_toNat_le.2 (by omega)))
      · rw [max_eq_left hle, hm]
        rw [UInt64.le_iff_toNat_le] at hle
        exact congrArg some (max_eq_right (UInt64.le_iff_toNat_le.2 (by omega)))

/-! ## What is in use -/

/-- Whether an event is that of a reset. -/
def Event.isCleared : Event → Bool
  | .cleared => true
  | _ => false

/-- The events since the last reset. -/
def sinceReset (events : List Event) : List Event :=
  events.rtakeWhile fun e => !e.isCleared

/-- The address that is in use from an event on: the one handed out, or the one that the marked
text denotes. -/
def Event.address? : Event → Option Ipv6
  | .issued x => some x
  | .marked s => Ipv6.parse? (Text.trim s)
  | .refused | .cleared => none

/-- The text that is reserved from an event on: the address handed out, or the normal form of the
marked text if it looks like IPv6. -/
def Event.form? : Event → Option String
  | .issued x => some x.text
  | .marked s => if looksLikeIpv6 (Text.trim s) then some (normalForm s) else none
  | .refused | .cleared => none

/-- The interface identifiers of a network that are in use. -/
def interfaces (network : UInt64) (events : List Event) : List UInt64 :=
  ((events.filterMap Event.address?).filter fun x => x.network == network).map Ipv6.interface

/-- The greatest interface identifier of a network that is in use, and zero if there is none. -/
def highest (network : UInt64) (events : List Event) : UInt64 :=
  (interfaces network events).foldl max 0

theorem sinceReset_concat (events : List Event) (e : Event) :
    sinceReset (events ++ [e]) = if e.isCleared then [] else sinceReset events ++ [e] := by
  rw [sinceReset, List.rtakeWhile_concat]
  cases e.isCleared <;> rfl

theorem highest_concat (network : UInt64) (events : List Event) (e : Event) :
    highest network (events ++ [e]) = match e.address? with
      | some x => if x.network = network then max (highest network events) x.interface
          else highest network events
      | none => highest network events := by
  simp only [highest, interfaces, List.filterMap_append, List.filter_append, List.map_append,
    List.foldl_append, List.filterMap_cons, List.filterMap_nil]
  cases e.address? with
  | none => rfl
  | some x =>
    by_cases hx : x.network = network
    · simp [hx]
    · simp [hx]

/-- None of some numbers is above the greatest of them. -/
theorem le_foldl_max {ns : List UInt64} (init : UInt64) :
    init ≤ ns.foldl max init ∧ ∀ n ∈ ns, n ≤ ns.foldl max init := by
  induction ns generalizing init with
  | nil => exact ⟨UInt64.le_refl init, nofun⟩
  | cons n ns ih =>
    obtain ⟨hinit, hrest⟩ := ih (max init n)
    have hmax := toNat_max init n
    rw [List.foldl_cons, List.forall_mem_cons]
    rw [UInt64.le_iff_toNat_le] at hinit ⊢
    refine ⟨by omega, ?_, hrest⟩
    rw [UInt64.le_iff_toNat_le]
    omega

theorem le_highest {network n : UInt64} {events : List Event} {e : Event} (he : e ∈ events)
    (h : e.address? = some ⟨network, n⟩) : n ≤ highest network events := by
  have hmem : n ∈ interfaces network events := by
    rw [interfaces, List.mem_map]
    refine ⟨⟨network, n⟩, List.mem_filter.2 ⟨List.mem_filterMap.2 ⟨e, he, h⟩, ?_⟩, rfl⟩
    simp
  rw [highest]
  exact (le_foldl_max 0).2 n hmem

/-- What is reserved as an address is in use as that address. -/
theorem Event.address?_of_form? {e : Event} {x : Ipv6} (h : e.form? = some x.text) :
    e.address? = some x := by
  unfold form? at h
  unfold address?
  cases e with
  | issued y =>
    simp only [Option.some_inj] at h ⊢
    exact Ipv6.text_injective h
  | marked s =>
    simp only [Option.ite_none_right_eq_some, Option.some_inj] at h
    exact normalForm_eq_text_iff.1 h.2
  | refused => simp at h
  | cleared => simp at h

/-! ## Reserving a text -/

/-- What is reserved once a text is marked. -/
theorem mem_reserved_markUsed (a : Allocator) (s t : String) :
    t ∈ (a.markUsed s).reserved ↔ t ∈ a.reserved ∨ (Event.marked s).form? = some t := by
  have hreserved : (a.markUsed s).reserved = if looksLikeIpv6 (Text.trim s) then
      a.reserved.insert (normalForm s) else a.reserved := by
    rw [markUsed]
    dsimp only
    rw [normalForm_trim]
    split
    · split
      · split <;> rfl
      · rfl
    · rfl
  rw [hreserved, Event.form?]
  split
  · rw [mem_insert_iff, Option.some_inj, or_comm, eq_comm]
  · simp

/-- Where the counter stands once a text is marked. -/
theorem next_markUsed (a : Allocator) (s : String) :
    (a.markUsed s).next = match (Event.marked s).address? with
      | some x => if x.network = a.network then
          a.next.bind fun n => (successor? x.interface).map fun past => max past n
          else a.next
      | none => a.next := by
  have haddress : (Event.marked s).address? = Ipv6.parse? (Text.trim s) := rfl
  rw [haddress, markUsed]
  dsimp only
  cases hparse : Ipv6.parse? (Text.trim s) with
  | none =>
    split
    · rfl
    · rfl
  | some x =>
    rw [if_pos (looksLikeIpv6_of_parse? hparse)]
    dsimp only
    split <;> rfl

/-! ## The state by the events -/

/-- The allocator stands where the events since the last reset have brought it. -/
structure Stands (a : Allocator) (network : UInt64) (events : List Event) : Prop where
  home : a.network = network
  next : a.next = successor? (highest network events)
  reserved : ∀ t, t ∈ a.reserved ↔ t ∈ events.filterMap Event.form?

namespace Stands

variable {a : Allocator} {network : UInt64} {events past : List Event}

/-- The candidate at the counter is free. -/
theorem not_taken (h : a.Stands network events) {n : UInt64} (hn : a.next = some n) :
    ¬ a.Taken n := by
  intro htaken
  rw [Taken, h.home, h.reserved] at htaken
  obtain ⟨e, he, hform⟩ := List.mem_filterMap.1 htaken
  have hle := le_highest he (Event.address?_of_form? hform)
  have hstep := toNat_of_successor? (h.next.symm.trans hn)
  rw [UInt64.le_iff_toNat_le] at hle
  omega

/-- What asking for an address comes to: the address at the counter, or a refusal that changes
nothing if there is none. -/
theorem nextAddress_eq (h : a.Stands network events) :
    a.nextAddress = match a.next with
      | some n => (.ok ⟨network, n⟩, { a with
          next := successor? n, reserved := a.reserved.insert (Ipv6.text ⟨network, n⟩) })
      | none => (.error ⟨network⟩, a) := by
  cases hn : a.next with
  | some n => rw [nextAddress_of_free hn (h.not_taken hn), h.home]
  | none =>
    unfold nextAddress
    rw [hn, h.home]

/-- A fresh allocator stands where nothing has brought it. -/
theorem fresh (network : UInt64) : Stands { network } network [] where
  home := rfl
  next := rfl
  reserved t := by simp

/-- Marking a text moves the state on by that event. -/
theorem mark (h : a.Stands network events) (s : String) :
    (a.markUsed s).Stands network (events ++ [.marked s]) where
  home := (advances_markUsed a s).network.trans h.home
  next := by
    rw [next_markUsed, highest_concat, h.home, h.next]
    split
    · split
      · exact bind_successor? _ _
      · rfl
    · rfl
  reserved t := by
    rw [mem_reserved_markUsed, h.reserved, List.filterMap_append, List.mem_append]
    simp

/-- So does asking for an address. -/
theorem issue (h : a.Stands network events) :
    a.nextAddress.2.Stands network (events ++ [.ofResult a.nextAddress.1]) := by
  rw [h.nextAddress_eq]
  cases hn : a.next with
  | none =>
    refine ⟨h.home, ?_, fun t => ?_⟩
    · rw [highest_concat]
      exact h.next
    · rw [h.reserved, List.filterMap_append]
      simp [Event.ofResult, Event.form?]
  | some n =>
    have hstep := toNat_of_successor? (h.next.symm.trans hn)
    have hmax : max (highest network events) n = n :=
      max_eq_right (UInt64.le_iff_toNat_le.2 (by omega))
    refine ⟨h.home, ?_, fun t => ?_⟩
    · rw [highest_concat]
      show successor? n = successor? (if network = network then max _ n else _)
      rw [if_pos rfl, hmax]
    · have hform : (Event.issued ⟨network, n⟩).form? = some (Ipv6.text ⟨network, n⟩) := rfl
      rw [mem_insert_iff, h.reserved, List.filterMap_append, List.mem_append, or_comm]
      simp [Event.ofResult, hform]

/-- Every step leaves the allocator where the events since the last reset, its own included, have
brought it. -/
theorem perform (h : a.Stands network (sinceReset past)) (step : Step) :
    (a.perform step).2.Stands network (sinceReset (past ++ [(a.perform step).1])) := by
  rw [sinceReset_concat]
  cases step with
  | next =>
    have hkept : (Event.ofResult a.nextAddress.1).isCleared = false := by
      cases a.nextAddress.1 <;> rfl
    simp only [Allocator.perform, hkept]
    exact h.issue
  | mark s =>
    simp only [Allocator.perform]
    exact h.mark s
  | reset =>
    simp only [Allocator.perform, reset, h.home]
    exact fresh network

/-- So does every run. -/
theorem after (h : a.Stands network (sinceReset past)) (steps : List Step) :
    (a.after steps).Stands network (sinceReset (past ++ a.history steps)) := by
  induction steps generalizing a past with
  | nil =>
    rw [history, List.append_nil]
    exact h
  | cons step steps ih =>
    rw [history, List.append_cons]
    exact ih (h.perform step)

end Stands

/-- **An allocator stands right behind the greatest identifier in use.** Take any run of a fresh
allocator, and let `m` be the greatest interface identifier among the addresses of its network that
were handed out or marked since the last reset, or zero. The counter is at the number behind `m`,
or at none if there is none. Reserved are the addresses handed out since, and the normal forms of
the texts marked since that look like IPv6. So the candidate at the counter is never reserved: the
next address is the one behind `m`, and there is none, and nothing changes, just if `m` is the
last identifier of all. -/
theorem counter_behind_highest (x : Ipv6) (steps : List Step) :
    let a := (forNetworkOf x).after steps
    let events := sinceReset ((forNetworkOf x).history steps)
    let m := highest x.network events
    a.network = x.network ∧
    a.next = (if m = 0xffffffffffffffff then none else some (m + 1)) ∧
    (∀ t, t ∈ a.reserved ↔ t ∈ events.filterMap Event.form?) ∧
    (∀ n ∈ a.next, a.isReserved (Ipv6.text ⟨a.network, n⟩) = false) ∧
    a.nextAddress = if m = 0xffffffffffffffff then (.error ⟨x.network⟩, a)
      else (.ok ⟨x.network, m + 1⟩, { a with
        next := successor? (m + 1)
        reserved := a.reserved.insert (Ipv6.text ⟨x.network, m + 1⟩) }) := by
  intro a events m
  have hfresh : (forNetworkOf x).Stands x.network (sinceReset []) := Stands.fresh x.network
  have hstands : a.Stands x.network events := hfresh.after steps
  have hnext : a.next = if m = 0xffffffffffffffff then none else some (m + 1) := hstands.next
  refine ⟨hstands.home, hnext, hstands.reserved, fun n hn => ?_, ?_⟩
  · have hfree : ¬ a.Taken n := hstands.not_taken hn
    rw [← contains_normalForm_iff, Bool.not_eq_true] at hfree
    exact hfree
  · rw [hstands.nextAddress_eq, hnext]
    by_cases hm : m = 0xffffffffffffffff
    · rw [if_pos hm, if_pos hm]
    · rw [if_neg hm, if_neg hm]

/-- Behind the last address but one, marked in capital letters, there is one more to hand out. What
else is marked is no address, or one of another network. -/
theorem last_address_behind_marked :
    let a := (forNetworkOf ⟨defaultNetwork, 7⟩).after
      [.next, .reset, .mark "FD01::FFFF:ffff:ffff:fffe ", .mark "fd01::12345", .mark "fd02::ffff"]
    a.next = some 0xffffffffffffffff ∧
    a.isReserved (Ipv6.text ⟨a.network, 0xffffffffffffffff⟩) = false ∧
    a.nextAddress.1 = .ok ⟨defaultNetwork, 0xffffffffffffffff⟩ ∧
    a.nextAddress.2.next = none := by
  intro a
  obtain ⟨-, hnext, -, hfree, haddress⟩ := counter_behind_highest ⟨defaultNetwork, 7⟩
    [.next, .reset, .mark "FD01::FFFF:ffff:ffff:fffe ", .mark "fd01::12345", .mark "fd02::ffff"]
  have hhighest : highest defaultNetwork (sinceReset ((forNetworkOf ⟨defaultNetwork, 7⟩).history
      [.next, .reset, .mark "FD01::FFFF:ffff:ffff:fffe ", .mark "fd01::12345",
        .mark "fd02::ffff"])) = 0xfffffffffffffffe := by
    decide +kernel
  rw [hhighest, if_neg (by decide)] at hnext haddress
  refine ⟨hnext, hfree _ hnext, ?_, ?_⟩
  · exact congrArg Prod.fst haddress
  · exact congrArg (fun result => result.2.next) haddress

end ReactorDeploy.Net.Allocator
