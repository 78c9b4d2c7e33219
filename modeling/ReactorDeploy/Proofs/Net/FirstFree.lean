import ReactorDeploy.Proofs.Net.Allocation

/-!
# The first free address

Asking an allocator for an address is a loop: the candidate at the counter is handed out or passed
over, and the counter goes on behind it either way (`Tries`). Whatever state it starts in, the loop
ends, since the counter never comes back to a number (`tries_nextFrom`). What it hands out is the
first candidate from the counter upwards whose normal form is not reserved, and it fails just if
there is none (`nextAddress_first_free`).

Nothing is assumed about the state here: the counter may stand anywhere, and anything may be
reserved, whether it is a normal form or not.
-/

namespace ReactorDeploy.Net.Allocator

/-- The text that an interface identifier is reserved by: the normal form of its address. -/
def form (a : Allocator) (n : UInt64) : String :=
  normalForm (Ipv6.text ⟨a.network, n⟩)

/-- The counter does not stand behind a number, and the address with that number as its interface
identifier is not reserved. -/
structure IsFree (a : Allocator) (n : UInt64) : Prop where
  reached : ∃ first, a.next = some first ∧ first ≤ n
  notMem : a.form n ∉ a.reserved

/-- The least free number. -/
structure IsFirstFree (a : Allocator) (n : UInt64) : Prop extends a.IsFree n where
  le : ∀ k, a.IsFree k → n ≤ k

/-- What asking for an address comes to after so many candidates. The counter goes on behind every
candidate, reserved or not; without a counter there is none. -/
inductive Tries : Allocator → Nat → Except Exhausted Ipv6 × Allocator → Prop
  | exhausted {a : Allocator} (hnext : a.next = none) : Tries a 0 (.error ⟨a.network⟩, a)
  | issued {a : Allocator} {n : UInt64} (hnext : a.next = some n) (hfree : a.form n ∉ a.reserved) :
    Tries a 1 (.ok ⟨a.network, n⟩,
      { a with next := successor? n, reserved := a.reserved.insert (a.form n) })
  | passed {a : Allocator} {n : UInt64} {tries : Nat} {result : Except Exhausted Ipv6 × Allocator}
    (hnext : a.next = some n) (htaken : a.form n ∈ a.reserved)
    (hrest : Tries { a with next := successor? n } tries result) : Tries a (tries + 1) result

/-! ## The loop -/

/-- Allocation from `n` upwards is the loop with its counter at `n`, and looks at no more candidates
than there are numbers from there. -/
theorem tries_nextFrom (a : Allocator) (n : UInt64) :
    ∃ tries, n.toNat + tries ≤ 2 ^ 64 ∧ Tries { a with next := some n } tries (a.nextFrom n) := by
  fun_induction nextFrom a n with
  | case1 n address form htaken m hm ih =>
    obtain ⟨tries, hle, hrest⟩ := ih
    have hstep := toNat_of_successor? hm
    refine ⟨tries + 1, by omega, .passed rfl (Std.TreeSet.mem_iff_contains.2 htaken) ?_⟩
    rw [hm]
    exact hrest
  | case2 n address form htaken hm =>
    have hlt := n.toNat_lt
    refine ⟨1, by omega, .passed rfl (Std.TreeSet.mem_iff_contains.2 htaken) ?_⟩
    rw [hm]
    exact .exhausted rfl
  | case3 n address form htaken =>
    have hlt := n.toNat_lt
    exact ⟨1, by omega, .issued rfl fun h => htaken (Std.TreeSet.mem_iff_contains.1 h)⟩

/-- Asking for an address is the loop. -/
theorem tries_nextAddress (a : Allocator) : ∃ tries ≤ 2 ^ 64, a.Tries tries a.nextAddress := by
  unfold nextAddress
  cases hnext : a.next with
  | none => exact ⟨0, Nat.zero_le _, .exhausted hnext⟩
  | some n =>
    obtain ⟨tries, hle, hloop⟩ := tries_nextFrom a n
    rw [← hnext] at hloop
    exact ⟨tries, by omega, hloop⟩

/-! ## What the loop comes to -/

/-- Behind a candidate that is reserved, the same numbers are free as before. -/
theorem isFree_passed_iff {a : Allocator} {n k : UInt64} (hnext : a.next = some n)
    (htaken : a.form n ∈ a.reserved) :
    IsFree { a with next := successor? n } k ↔ a.IsFree k := by
  constructor
  · rintro ⟨⟨m, (hm : successor? n = some m), hle⟩, hk⟩
    have hstep := toNat_of_successor? hm
    rw [UInt64.le_iff_toNat_le] at hle
    exact ⟨⟨n, hnext, UInt64.le_iff_toNat_le.2 (by omega)⟩, hk⟩
  · rintro ⟨⟨first, hfirst, hle⟩, hk⟩
    obtain rfl : n = first := Option.some.inj (hnext.symm.trans hfirst)
    have hne : k ≠ n := fun hkn => hk (hkn ▸ htaken)
    obtain ⟨m, hm⟩ : ∃ m, successor? n = some m :=
      Option.ne_none_iff_exists'.1 fun hlast =>
        hne (UInt64.le_antisymm (le_of_successor?_eq_none hlast) hle)
    exact ⟨⟨m, hm, (eq_or_le_of_successor? hm hle).resolve_left hne⟩, hk⟩

/-- What the loop hands out is the first free address, and it fails if there is none. -/
theorem Tries.cases {a : Allocator} {tries : Nat} {result : Except Exhausted Ipv6 × Allocator}
    (h : a.Tries tries result) :
    (∃ n, a.IsFirstFree n ∧ result = (.ok ⟨a.network, n⟩,
      { a with next := successor? n, reserved := a.reserved.insert (a.form n) })) ∨
    ((∀ n, ¬ a.IsFree n) ∧ result = (.error ⟨a.network⟩, { a with next := none })) := by
  induction h with
  | @exhausted a hnext =>
    refine .inr ⟨fun n ⟨⟨first, hfirst, _⟩, _⟩ => ?_, ?_⟩
    · rw [hnext] at hfirst
      cases hfirst
    · rw [← hnext]
  | @issued a n hnext hfree =>
    refine .inl ⟨n, ⟨⟨⟨n, hnext, UInt64.le_refl n⟩, hfree⟩, fun k hk => ?_⟩, rfl⟩
    obtain ⟨⟨first, hfirst, hle⟩, -⟩ := hk
    obtain rfl : n = first := Option.some.inj (hnext.symm.trans hfirst)
    exact hle
  | @passed a n tries result hnext htaken _ ih =>
    have hsame : ∀ k, IsFree { a with next := successor? n } k ↔ a.IsFree k := fun k =>
      isFree_passed_iff hnext htaken
    rcases ih with ⟨m, hm, hresult⟩ | ⟨hnone, hresult⟩
    · refine .inl ⟨m, ⟨(hsame m).1 hm.toIsFree, fun k hk => hm.le k ((hsame k).2 hk)⟩, hresult⟩
    · exact .inr ⟨fun k hk => hnone k ((hsame k).2 hk), hresult⟩

/-- **An allocator hands out the first free address.** Asking an allocator for an address looks at
finitely many candidates, whatever its state. If the normal form of some address from its counter
upwards is not reserved, the first such address is handed out, its normal form is reserved and
nothing else is, and the counter goes on behind it, or is spent if there is nothing behind it.
Otherwise the addresses are exhausted, the counter is spent, and nothing else changes. -/
theorem nextAddress_first_free (a : Allocator) :
    (∃ tries ≤ 2 ^ 64, a.Tries tries a.nextAddress) ∧
    ((∃ n, a.IsFree n) → ∃ n b, a.IsFirstFree n ∧ a.nextAddress = (.ok ⟨a.network, n⟩, b) ∧
      b.network = a.network ∧
      b.next = (if n = 0xffffffffffffffff then none else some (n + 1)) ∧
      ∀ text, text ∈ b.reserved ↔ text = a.form n ∨ text ∈ a.reserved) ∧
    ((¬ ∃ n, a.IsFree n) → a.nextAddress = (.error ⟨a.network⟩, { a with next := none })) := by
  obtain ⟨tries, hle, hloop⟩ := a.tries_nextAddress
  refine ⟨⟨tries, hle, hloop⟩, fun ⟨k, hk⟩ => ?_, fun hnone => ?_⟩
  · rcases hloop.cases with ⟨n, hn, hresult⟩ | ⟨hnone, -⟩
    · exact ⟨n, _, hn, hresult, rfl, rfl, fun text => mem_insert_iff⟩
    · exact absurd hk (hnone k)
  · rcases hloop.cases with ⟨n, hn, -⟩ | ⟨-, hresult⟩
    · exact absurd ⟨n, hn.toIsFree⟩ hnone
    · exact hresult

/-- An allocator whose counter stands at the last address but one, which is reserved although the
counter never passed it. -/
def nearlySpent : Allocator where
  network := defaultNetwork
  next := some 0xfffffffffffffffe
  reserved := (∅ : Std.TreeSet String).insert "fd01::ffff:ffff:ffff:fffe"

/-- It passes that address over, hands out the last one, and has none left then. -/
theorem nearlySpent_hands_out_last :
    (∃ n, nearlySpent.IsFree n) ∧
      ∃ b, nearlySpent.nextAddress = (.ok ⟨defaultNetwork, 0xffffffffffffffff⟩, b) ∧
        b.next = none ∧ (¬ ∃ n, b.IsFree n) ∧
        b.nextAddress = (.error ⟨defaultNetwork⟩, { b with next := none }) := by
  have hlast : nearlySpent.IsFree 0xffffffffffffffff := by
    refine ⟨⟨0xfffffffffffffffe, rfl, by decide⟩, fun hmem => ?_⟩
    have hform : nearlySpent.form 0xffffffffffffffff ≠ "fd01::ffff:ffff:ffff:fffe" := by
      decide +kernel
    exact (mem_insert_iff.1 hmem).elim hform Std.TreeSet.not_mem_emptyc
  have hreserved : nearlySpent.form 0xfffffffffffffffe ∈ nearlySpent.reserved :=
    mem_insert_iff.2 (.inl (by decide +kernel))
  obtain ⟨-, hfree, -⟩ := nextAddress_first_free nearlySpent
  obtain ⟨n, b, hn, hresult, hnetwork, hnext, -⟩ := hfree ⟨_, hlast⟩
  -- The first free number is above the counter and not behind the last number.
  obtain rfl : n = 0xffffffffffffffff := by
    obtain ⟨first, hfirst, hle⟩ := hn.reached
    obtain rfl : 0xfffffffffffffffe = first := Option.some.inj hfirst
    have hne : n ≠ 0xfffffffffffffffe := by
      rintro rfl
      exact hn.notMem hreserved
    have hstep : successor? 0xfffffffffffffffe = some 0xffffffffffffffff := by decide
    exact UInt64.le_antisymm (hn.le _ hlast)
      ((eq_or_le_of_successor? hstep hle).resolve_left hne)
  have hspent : b.next = none := hnext
  have hnone : ¬ ∃ n, b.IsFree n := by
    rintro ⟨k, ⟨first, hfirst, -⟩, -⟩
    rw [hspent] at hfirst
    cases hfirst
  obtain ⟨-, -, hexhausted⟩ := nextAddress_first_free b
  have hsame : Exhausted.mk b.network = ⟨defaultNetwork⟩ := congrArg Exhausted.mk hnetwork
  exact ⟨⟨_, hlast⟩, b, hresult, hspent, hnone, hsame ▸ hexhausted hnone⟩

end ReactorDeploy.Net.Allocator
