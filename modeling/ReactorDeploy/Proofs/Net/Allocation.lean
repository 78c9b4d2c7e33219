import ReactorDeploy.Net.Allocator
import ReactorDeploy.Proofs.Net.NormalForm

/-!
# What an allocator hands out

Two facts about a single step carry everything here. An allocator hands out the first address from
its counter upwards that is not reserved (`nextFrom_ok`), and no step but a reset takes a
reservation back or moves the counter down (`advances_perform`). Over any run, therefore, the
addresses handed out between two resets ascend, and none of them is one that a text reserved before
denotes.
-/

namespace ReactorDeploy.Net.Allocator

/-! ## The first free address -/

/-- The address with an interface identifier is in use. -/
def Taken (a : Allocator) (n : UInt64) : Prop :=
  Ipv6.text ⟨a.network, n⟩ ∈ a.reserved

/-- The test that allocation makes on a candidate is whether it is in use. -/
theorem contains_normalForm_iff (a : Allocator) (n : UInt64) :
    a.reserved.contains (normalForm (Ipv6.text ⟨a.network, n⟩)) = true ↔ a.Taken n := by
  rw [Ipv6.normalForm_text, Taken, Std.TreeSet.mem_iff_contains]

/-- Only the greatest number has no successor. -/
theorem le_of_successor?_eq_none {n k : UInt64} (h : successor? n = none) : k ≤ n := by
  unfold successor? at h
  split at h
  · next hn =>
    rw [hn, UInt64.le_iff_toNat_le]
    have := k.toNat_lt
    simp
    omega
  · cases h

/-- A number is the greatest one, equal to a given one, or at least its successor. -/
theorem eq_or_le_of_successor? {n m k : UInt64} (h : successor? n = some m) (hk : n ≤ k) :
    k = n ∨ m ≤ k := by
  have hm := toNat_of_successor? h
  rw [UInt64.le_iff_toNat_le] at hk ⊢
  rw [← UInt64.toNat_inj]
  omega

/-- Allocation from `n` upwards hands out the first address that is not in use, reserves it and
goes on behind it. -/
theorem nextFrom_ok {a b : Allocator} {n : UInt64} {x : Ipv6} (h : a.nextFrom n = (.ok x, b)) :
    ∃ m, n ≤ m ∧ x = ⟨a.network, m⟩ ∧ ¬ a.Taken m ∧ (∀ k, n ≤ k → k < m → a.Taken k) ∧
      b = { a with next := successor? m, reserved := a.reserved.insert x.text } := by
  fun_induction nextFrom a n with
  | case1 n address form htaken m hm ih =>
    obtain ⟨m', hle, hx, hfree, hbelow, hb⟩ := ih h
    have hstep := toNat_of_successor? hm
    refine ⟨m', ?_, hx, hfree, fun k hnk hkm => ?_, hb⟩
    · rw [UInt64.le_iff_toNat_le] at hle ⊢
      omega
    · rcases eq_or_le_of_successor? hm hnk with rfl | hmk
      · exact (contains_normalForm_iff a k).1 htaken
      · exact hbelow k hmk hkm
  | case2 n address form htaken hm => cases h
  | case3 n address form htaken =>
    obtain ⟨hx, hb⟩ := Prod.mk.inj h
    obtain rfl : x = ⟨a.network, n⟩ := (Except.ok.inj hx).symm
    refine ⟨n, UInt64.le_refl n, rfl, ?_, fun k hnk hkn => ?_, ?_⟩
    · exact fun ht => htaken ((contains_normalForm_iff a n).2 ht)
    · exact absurd (UInt64.lt_of_le_of_lt hnk hkn) (UInt64.lt_irrefl n)
    · rw [← hb, show form = Ipv6.text ⟨a.network, n⟩ from Ipv6.normalForm_text _]

/-- Allocation from `n` upwards fails when all the addresses there are in use, and then no number
is left to try. -/
theorem nextFrom_error {a b : Allocator} {n : UInt64} {e : Exhausted}
    (h : a.nextFrom n = (.error e, b)) :
    e = ⟨a.network⟩ ∧ b = { a with next := none } ∧ ∀ k, n ≤ k → a.Taken k := by
  fun_induction nextFrom a n with
  | case1 n address form htaken m hm ih =>
    obtain ⟨he, hb, habove⟩ := ih h
    refine ⟨he, hb, fun k hnk => ?_⟩
    rcases eq_or_le_of_successor? hm hnk with rfl | hmk
    · exact (contains_normalForm_iff a k).1 htaken
    · exact habove k hmk
  | case2 n address form htaken hm =>
    cases h
    refine ⟨rfl, rfl, fun k hnk => ?_⟩
    have hkn : k = n := UInt64.le_antisymm (le_of_successor?_eq_none hm) hnk
    exact (contains_normalForm_iff a k).1 (hkn ▸ htaken)
  | case3 n address form htaken => cases h

/-! ## Steps -/

/-- `b` may come of `a` without a reset: it counts in the same network, nothing reserved is
forgotten, and the counter has not gone back. -/
structure Advances (a b : Allocator) : Prop where
  network : b.network = a.network
  reserved : ∀ t ∈ a.reserved, t ∈ b.reserved
  next : ∀ m, b.next = some m → ∃ n, a.next = some n ∧ n ≤ m

/-- Nothing happened. -/
theorem Advances.refl (a : Allocator) : a.Advances a where
  network := rfl
  reserved _ h := h
  next m h := ⟨m, h, UInt64.le_refl m⟩

/-- One thing happened after another. -/
theorem Advances.trans {a b c : Allocator} (hab : a.Advances b) (hbc : b.Advances c) :
    a.Advances c where
  network := hbc.network.trans hab.network
  reserved t h := hbc.reserved t (hab.reserved t h)
  next m h := by
    obtain ⟨k, hk, hkm⟩ := hbc.next m h
    obtain ⟨n, hn, hnk⟩ := hab.next k hk
    exact ⟨n, hn, UInt64.le_trans hnk hkm⟩

/-- What is reserved once a text is: that text and all that was before. -/
theorem mem_insert_iff {reserved : Std.TreeSet String} {t u : String} :
    u ∈ reserved.insert t ↔ u = t ∨ u ∈ reserved := by
  rw [Std.TreeSet.mem_insert, Std.compare_eq_iff_eq, eq_comm]

/-- The greater of two numbers is no less than the second. -/
theorem le_max_right (m n : UInt64) : n ≤ max m n := by
  show n ≤ if m ≤ n then n else m
  split
  · exact UInt64.le_refl n
  · next h => exact UInt64.le_of_lt (UInt64.not_le.1 h)

/-- Reserving a text takes nothing back. -/
theorem advances_markUsed (a : Allocator) (s : String) : a.Advances (a.markUsed s) := by
  have hreserve : ∀ t, a.Advances { a with reserved := a.reserved.insert t } := fun t =>
    ⟨rfl, fun u hu => mem_insert_iff.2 (.inr hu), (Advances.refl a).next⟩
  rw [markUsed]
  dsimp only
  split
  · split
    · next x _ =>
      split
      · refine ⟨rfl, (hreserve _).reserved, fun m hm => ?_⟩
        obtain ⟨n, hn, hpast⟩ := Option.bind_eq_some_iff.1 hm
        obtain ⟨past, -, rfl⟩ := Option.map_eq_some_iff.1 hpast
        exact ⟨n, hn, le_max_right past n⟩
      · exact hreserve _
    · exact hreserve _
  · exact Advances.refl a

/-- A text that denotes an address is reserved as that address is written. -/
theorem text_mem_reserved_markUsed (a : Allocator) {s : String} {x : Ipv6}
    (h : Ipv6.parse? (Text.trim s) = some x) : x.text ∈ (a.markUsed s).reserved := by
  have hlooks : looksLikeIpv6 (Text.trim s) = true := looksLikeIpv6_of_parse? h
  rw [markUsed]
  dsimp only
  rw [if_pos hlooks, normalForm_trim, normalForm_of_parse? h, h]
  dsimp only
  split <;> exact mem_insert_iff.2 (.inl rfl)

/-- An address handed out lies in the network, at the counter or above it, is reserved from then on
and was not before; and the counter goes on right behind it. -/
theorem nextAddress_ok {a b : Allocator} {x : Ipv6} (h : a.nextAddress = (.ok x, b)) :
    x.network = a.network ∧ (∃ n, a.next = some n ∧ n ≤ x.interface) ∧ x.text ∉ a.reserved ∧
      b = { a with next := successor? x.interface, reserved := a.reserved.insert x.text } := by
  unfold nextAddress at h
  split at h
  · next n hn =>
    obtain ⟨m, hle, rfl, hfree, -, hb⟩ := nextFrom_ok h
    exact ⟨rfl, ⟨n, hn, hle⟩, hfree, hb⟩
  · cases h

/-- The address at the counter is handed out if it is not in use. -/
theorem nextAddress_of_free {a : Allocator} {n : UInt64} (hn : a.next = some n)
    (hfree : ¬ a.Taken n) :
    a.nextAddress = (.ok ⟨a.network, n⟩, { a with
      next := successor? n, reserved := a.reserved.insert (Ipv6.text ⟨a.network, n⟩) }) := by
  have hcontains : ¬ a.reserved.contains (normalForm (Ipv6.text ⟨a.network, n⟩)) = true :=
    fun h => hfree ((contains_normalForm_iff a n).1 h)
  unfold nextAddress
  rw [hn]
  dsimp only
  rw [nextFrom, if_neg hcontains, Ipv6.normalForm_text]

/-- Handing out an address takes nothing back. -/
theorem advances_nextAddress (a : Allocator) : a.Advances a.nextAddress.2 := by
  cases hnext : a.nextAddress with
  | mk result b =>
    cases result with
    | ok x =>
      obtain ⟨-, ⟨n, hn, hle⟩, -, rfl⟩ := nextAddress_ok hnext
      refine ⟨rfl, fun u hu => mem_insert_iff.2 (.inr hu), fun m hm => ⟨n, hn, ?_⟩⟩
      have hm := toNat_of_successor? hm
      rw [UInt64.le_iff_toNat_le] at hle ⊢
      omega
    | error e =>
      unfold nextAddress at hnext
      split at hnext
      · obtain ⟨-, rfl, -⟩ := nextFrom_error hnext
        exact ⟨rfl, fun u hu => hu, fun m hm => nomatch hm⟩
      · cases hnext
        exact Advances.refl a

/-! ## Runs -/

/-- What can be asked of an allocator. -/
inductive Step where
  | next
  | mark (text : String)
  | reset

/-- What a step comes to. -/
inductive Event where
  | issued (address : Ipv6)
  | refused
  | marked (text : String)
  | cleared

/-- What asking for an address comes to. -/
def Event.ofResult : Except Exhausted Ipv6 → Event
  | .ok x => .issued x
  | .error _ => .refused

/-- Takes a step. -/
def perform (a : Allocator) : Step → Event × Allocator
  | .next => (.ofResult a.nextAddress.1, a.nextAddress.2)
  | .mark text => (.marked text, a.markUsed text)
  | .reset => (.cleared, a.reset)

/-- What a sequence of steps comes to, one event a step. -/
def history : Allocator → List Step → List Event
  | _, [] => []
  | a, step :: steps => (a.perform step).1 :: (a.perform step).2.history steps

/-- The state that a sequence of steps leads to. -/
def after : Allocator → List Step → Allocator
  | a, [] => a
  | a, step :: steps => (a.perform step).2.after steps

/-- A step that clears nothing takes nothing back. -/
theorem advances_perform {a : Allocator} {step : Step} (h : (a.perform step).1 ≠ .cleared) :
    a.Advances (a.perform step).2 := by
  cases step with
  | next =>
    simp only [perform]
    exact advances_nextAddress a
  | mark text =>
    simp only [perform]
    exact advances_markUsed a text
  | reset => exact absurd rfl h

/-- A run that clears nothing takes nothing back. -/
theorem advances_after {a : Allocator} {steps : List Step} (h : .cleared ∉ a.history steps) :
    a.Advances (a.after steps) := by
  induction steps generalizing a with
  | nil => exact Advances.refl a
  | cons step steps ih =>
    rw [history, List.mem_cons, not_or] at h
    exact (advances_perform (Ne.symm h.1)).trans (ih h.2)

/-- An event of a run is that of a step taken in the state that the steps before it lead to. -/
theorem exists_of_history {a : Allocator} {steps : List Step} {earlier later : List Event}
    {event : Event} (h : a.history steps = earlier ++ event :: later) :
    ∃ before step rest, a.history before = earlier ∧
      ((a.after before).perform step).1 = event ∧
      ((a.after before).perform step).2.history rest = later := by
  induction steps generalizing a earlier with
  | nil => cases earlier <;> cases h
  | cons first steps ih =>
    rw [history] at h
    cases earlier with
    | nil =>
      obtain ⟨hevent, hlater⟩ := List.cons.inj h
      exact ⟨[], first, steps, rfl, hevent, hlater⟩
    | cons e earlier =>
      obtain ⟨he, hrest⟩ := List.cons.inj h
      obtain ⟨before, step, rest, hbefore, hstep, hlater⟩ := ih hrest
      exact ⟨first :: before, step, rest, by rw [history, he, hbefore], hstep, hlater⟩

/-- Only a step that asks for an address hands one out. -/
theorem nextAddress_of_issued {a : Allocator} {step : Step} {x : Ipv6}
    (h : (a.perform step).1 = .issued x) : a.nextAddress = (.ok x, (a.perform step).2) := by
  cases step with
  | next =>
    rw [perform] at h ⊢
    cases hnext : a.nextAddress with
    | mk result b =>
      rw [hnext] at h
      cases result <;> cases h
      rfl
  | mark text => cases h
  | reset => cases h

/-- Only a step that marks a text reserves it. -/
theorem perform_of_marked {a : Allocator} {step : Step} {s : String}
    (h : (a.perform step).1 = .marked s) : (a.perform step).2 = a.markUsed s := by
  cases step with
  | next =>
    rw [perform] at h
    cases hresult : a.nextAddress.1 <;> simp [hresult, Event.ofResult] at h
  | mark text =>
    obtain rfl : text = s := by simpa [perform] using h
    simp only [perform]
  | reset => cases h

/-- A run changes the network of no allocator. -/
theorem network_after (a : Allocator) (steps : List Step) :
    (a.after steps).network = a.network := by
  induction steps generalizing a with
  | nil => rfl
  | cons step steps ih =>
    rw [after, ih]
    cases step with
    | next =>
      simp only [perform]
      exact (advances_nextAddress a).network
    | mark text =>
      simp only [perform]
      exact (advances_markUsed a text).network
    | reset => rfl

/-- **Addresses are handed out in ascending order and never against a reservation.** Over any run
of any allocator, the addresses handed out lie in its network; of two handed out without a reset
between them the later one has the greater interface identifier; and an address handed out is not
denoted, under any spelling, by a text that was reserved before it and after the last reset. -/
theorem issued_ascending_and_unreserved (a : Allocator) (steps : List Step) :
    (∀ x, .issued x ∈ a.history steps → x.network = a.network) ∧
    (∀ earlier between later x y,
      a.history steps = earlier ++ .issued x :: (between ++ .issued y :: later) →
      .cleared ∉ between → x.interface < y.interface) ∧
    (∀ earlier between later s y,
      a.history steps = earlier ++ .marked s :: (between ++ .issued y :: later) →
      .cleared ∉ between → Ipv6.parse? (Text.trim s) ≠ some y) := by
  refine ⟨fun x hx => ?_, fun earlier between later x y h hkept => ?_,
    fun earlier between later s y h hkept hdenotes => ?_⟩
  · obtain ⟨earlier, later, h⟩ := List.append_of_mem hx
    obtain ⟨before, step, rest, -, hstep, -⟩ := exists_of_history h
    obtain ⟨hnetwork, -⟩ := nextAddress_ok (nextAddress_of_issued hstep)
    rw [hnetwork, network_after]
  · obtain ⟨before, step, rest, -, hx, hrest⟩ := exists_of_history h
    obtain ⟨before', step', rest', hbetween, hy, -⟩ := exists_of_history hrest
    obtain ⟨-, -, -, hstate⟩ := nextAddress_ok (nextAddress_of_issued hx)
    obtain ⟨-, ⟨n, hn, hle⟩, -⟩ := nextAddress_ok (nextAddress_of_issued hy)
    -- The counter stands behind `x` when `y` is asked for.
    obtain ⟨m, hm, hmn⟩ := (advances_after (hbetween ▸ hkept)).next n hn
    rw [hstate] at hm
    have hm := toNat_of_successor? hm
    rw [UInt64.le_iff_toNat_le] at hle hmn
    rw [UInt64.lt_iff_toNat_lt]
    omega
  · obtain ⟨before, step, rest, -, hs, hrest⟩ := exists_of_history h
    obtain ⟨before', step', rest', hbetween, hy, -⟩ := exists_of_history hrest
    obtain ⟨-, -, hfree, -⟩ := nextAddress_ok (nextAddress_of_issued hy)
    refine hfree ((advances_after (hbetween ▸ hkept)).reserved _ ?_)
    rw [perform_of_marked hs]
    exact text_mem_reserved_markUsed _ hdenotes

/-- An address that is reserved in other letters and between blanks is passed over, and of the two
that are handed out then the second is the greater one. -/
theorem issued_behind_reservation :
    fresh.history [.mark " FD01:0::1 ", .next, .next] =
        [.marked " FD01:0::1 ", .issued ⟨defaultNetwork, 2⟩, .issued ⟨defaultNetwork, 3⟩] ∧
      defaultNetwork = fresh.network ∧ (2 : UInt64) < 3 ∧
      Ipv6.parse? (Text.trim " FD01:0::1 ") ≠ some ⟨defaultNetwork, 3⟩ := by
  generalize hmarked : fresh.markUsed " FD01:0::1 " = marked
  have hnetwork : marked.network = defaultNetwork := by
    rw [← hmarked]
    exact (advances_markUsed fresh _).network
  have hcounter : marked.next = some 2 := by
    rw [← hmarked]
    decide +kernel
  have hfirst : ¬ marked.Taken 2 := by
    rw [← hmarked, Taken, Std.TreeSet.mem_iff_contains]
    decide +kernel
  have hissued := nextAddress_of_free hcounter hfirst
  have hsecond : ¬ marked.nextAddress.2.Taken 3 := by
    rw [hissued, ← hmarked, Taken, Std.TreeSet.mem_iff_contains]
    decide +kernel
  have hnext : marked.nextAddress.2.next = some 3 := by
    rw [hissued]
    rfl
  have hagain := nextAddress_of_free hnext hsecond
  have hhistory : fresh.history [.mark " FD01:0::1 ", .next, .next] =
      [.marked " FD01:0::1 ", .issued ⟨defaultNetwork, 2⟩, .issued ⟨defaultNetwork, 3⟩] := by
    simp only [history, perform, hmarked, hagain]
    rw [hissued, hnetwork]
    rfl
  obtain ⟨hlies, hascend, hreserved⟩ := issued_ascending_and_unreserved fresh
    [.mark " FD01:0::1 ", .next, .next]
  refine ⟨hhistory, hlies ⟨defaultNetwork, 2⟩ ?_, ?_, ?_⟩
  · rw [hhistory]
    exact .tail _ (.head _)
  · exact hascend [.marked " FD01:0::1 "] [] [] _ _ hhistory List.not_mem_nil
  · exact hreserved [] [.issued ⟨defaultNetwork, 2⟩] [] _ _ hhistory (by simp)

end ReactorDeploy.Net.Allocator
