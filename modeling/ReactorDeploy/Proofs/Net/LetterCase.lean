import ReactorDeploy.Proofs.Net.NormalForm
import ReactorDeploy.Proofs.Text.Lowercase

/-!
# The case of letters in addresses

Every reader of addresses takes capital hexadecimal digits like small ones, so a text denotes the
same IPv6 address whatever the case of its letters (`parse?_of_toLower`). A text that denotes no
address therefore has no address as its lower-case form either, and the normal form of a text is
the written form of an address exactly if the text denotes it (`normalForm_eq_text_iff`).
-/

namespace ReactorDeploy.Net

open Text (IsLow toNat_toLower toLower_eq_self)

/-! ## Characters -/

/-- The value of a digit by its code point. -/
theorem hexValue?_eq (c : Char) : hexValue? c =
    if 48 ≤ c.toNat ∧ c.toNat ≤ 57 then some (c.toNat - 48)
    else if 97 ≤ c.toNat ∧ c.toNat ≤ 102 then some (c.toNat - 87)
    else if 65 ≤ c.toNat ∧ c.toNat ≤ 70 then some (c.toNat - 55)
    else none := by
  unfold hexValue?
  simp only [Char.le_def, UInt32.le_iff_toNat_le]
  rfl

/-- A hexadecimal digit has the same value in either case. -/
theorem hexValue?_toLower (c : Char) : hexValue? c.toLower = hexValue? c := by
  by_cases hcapital : 'A'.toNat ≤ c.toNat ∧ c.toNat ≤ 'Z'.toNat
  · rw [hexValue?_eq, hexValue?_eq, toNat_toLower hcapital]
    obtain ⟨hge, hle⟩ : 65 ≤ c.toNat ∧ c.toNat ≤ 90 := hcapital
    have hdigit : ¬ (48 ≤ c.toNat + 32 ∧ c.toNat + 32 ≤ 57) := by omega
    have hdigit' : ¬ (48 ≤ c.toNat ∧ c.toNat ≤ 57) := by omega
    have hsmall : ¬ (97 ≤ c.toNat ∧ c.toNat ≤ 102) := by omega
    rw [if_neg hdigit, if_neg hdigit', if_neg hsmall]
    by_cases hhex : c.toNat ≤ 70
    · rw [if_pos ⟨by omega, by omega⟩, if_pos ⟨hge, hhex⟩]
      exact congrArg some (by omega)
    · rw [if_neg (by omega), if_neg (by omega), if_neg (by omega)]
  · rw [toLower_eq_self hcapital]

/-- A decimal digit has no case. -/
theorem isDigit_toLower (c : Char) : c.toLower.isDigit = c.isDigit := by
  by_cases hcapital : 'A'.toNat ≤ c.toNat ∧ c.toNat ≤ 'Z'.toNat
  · rw [Bool.eq_iff_iff, Char.isDigit_iff_toNat, Char.isDigit_iff_toNat, toNat_toLower hcapital]
    obtain ⟨hge, hle⟩ : 65 ≤ c.toNat ∧ c.toNat ≤ 90 := hcapital
    have hnine : '9'.toNat = 57 := rfl
    omega
  · rw [toLower_eq_self hcapital]

/-- Nor has anything else that stands before the letters. -/
theorem toLower_eq_iff {c d : Char} (hd : d.toNat < 'A'.toNat) : c.toLower = d ↔ c = d := by
  by_cases hcapital : 'A'.toNat ≤ c.toNat ∧ c.toNat ≤ 'Z'.toNat
  · have hlower := toNat_toLower hcapital
    rw [← Char.toNat_inj, ← Char.toNat_inj]
    omega
  · rw [toLower_eq_self hcapital]

/-- A run of digits has the same value in either case. -/
theorem digitsValue_toLower (base : Nat) (digits : List Char) :
    digitsValue base (digits.map Char.toLower) = digitsValue base digits := by
  simp only [digitsValue, List.foldl_map, hexValue?_toLower]

/-! ## IPv4 addresses -/

namespace Ipv4

theorem readOctet_toLower (cs : List Char) : readOctet (cs.map Char.toLower) =
    (readOctet cs).map fun found => (found.1, found.2.map Char.toLower) := by
  have hdigits : Char.isDigit ∘ Char.toLower = Char.isDigit := funext isDigit_toLower
  have hzero : ((cs.takeWhile Char.isDigit).map Char.toLower).head? = some '0' ↔
      (cs.takeWhile Char.isDigit).head? = some '0' := by
    cases cs.takeWhile Char.isDigit with
    | nil => rfl
    | cons c ds => simp [toLower_eq_iff (d := '0') (by decide)]
  simp only [readOctet, List.takeWhile_map, List.dropWhile_map, hdigits, digitsValue_toLower,
    List.isEmpty_map, List.length_map, hzero]
  split_ifs <;> rfl

theorem readNext_toLower (cs : List Char) : readNext (cs.map Char.toLower) =
    (readNext cs).map fun found => (found.1, found.2.map Char.toLower) := by
  cases cs with
  | nil => rfl
  | cons c cs =>
    rw [List.map_cons]
    by_cases hdot : c = '.'
    · subst hdot
      exact readOctet_toLower cs
    · have hlower : c.toLower ≠ '.' := fun h => hdot ((toLower_eq_iff (by decide)).1 h)
      simp [readNext, hdot, hlower]

/-- An IPv4 address is read off a text whatever the case of the letters behind it. -/
theorem read_toLower (cs : List Char) : read (cs.map Char.toLower) =
    (read cs).map fun found => (found.1, found.2.map Char.toLower) := by
  simp only [read, readOctet_toLower, readNext_toLower, Option.bind_eq_bind, Option.bind_map,
    Option.map_bind, Function.comp_def]
  rfl

end Ipv4

/-! ## IPv6 addresses -/

namespace Ipv6

theorem readGroup_toLower (cs : List Char) : readGroup (cs.map Char.toLower) =
    (readGroup cs).map fun found => (found.1, found.2.map Char.toLower) := by
  have hdigits : (fun c => (hexValue? c).isSome) ∘ Char.toLower = fun c => (hexValue? c).isSome :=
    funext fun c => congrArg Option.isSome (hexValue?_toLower c)
  simp only [readGroup, List.takeWhile_map, List.dropWhile_map, hdigits, digitsValue_toLower,
    List.isEmpty_map, List.length_map]
  split_ifs <;> rfl

theorem afterSeparator_toLower (first : Bool) (cs : List Char) :
    afterSeparator first (cs.map Char.toLower) =
      (afterSeparator first cs).map (List.map Char.toLower) := by
  cases first with
  | true => rfl
  | false =>
    cases cs with
    | nil => rfl
    | cons c cs =>
      rw [List.map_cons]
      by_cases hcolon : c = ':'
      · subst hcolon
        rfl
      · have hlower : c.toLower ≠ ':' := fun h => hcolon ((toLower_eq_iff (by decide)).1 h)
        simp [afterSeparator, hcolon, hlower]

/-- A run of groups is read off a text whatever the case of its letters. -/
theorem readRun_toLower (first : Bool) (room : Nat) (cs : List Char) :
    readRun first room (cs.map Char.toLower) =
      { readRun first room cs with rest := (readRun first room cs).rest.map Char.toLower } := by
  induction room generalizing first cs with
  | zero => rfl
  | succ room ih =>
    rw [readRun, readRun, afterSeparator_toLower]
    cases afterSeparator first cs with
    | none => rfl
    | some body =>
      simp only [Option.map_some, Ipv4.read_toLower, readGroup_toLower]
      -- An IPv4 address ends the run; only where there is none is a group read.
      by_cases hroom : room = 0
      · simp only [hroom, if_true]
        cases readGroup body with
        | none => rfl
        | some found => rfl
      · simp only [hroom, if_false]
        cases Ipv4.read body with
        | some found => rfl
        | none =>
          cases readGroup body with
          | none => rfl
          | some found => simp only [Option.map_none, Option.map_some, ih]

/-- The two colons between which zero groups are left out have no case. -/
theorem gap_toLower (cs : List Char) :
    (∃ rest, cs.map Char.toLower = ':' :: ':' :: rest) ↔ ∃ rest, cs = ':' :: ':' :: rest := by
  have hcolon : ∀ c : Char, c.toLower = ':' ↔ c = ':' := fun c => toLower_eq_iff (by decide)
  match cs with
  | [] => simp
  | [c] => simp
  | c :: d :: cs => simp [hcolon]

/-- An address is read off a text whatever the case of its letters. -/
theorem read_toLower (cs : List Char) : read (cs.map Char.toLower) =
    (read cs).map fun found => (found.1, found.2.map Char.toLower) := by
  simp only [read, readRun_toLower]
  generalize readRun true 8 cs = front
  split_ifs
  · rfl
  · rfl
  · split
    · next rest hlower =>
      obtain ⟨tail, htail⟩ := (gap_toLower front.rest).1 ⟨rest, hlower⟩
      obtain rfl : tail.map Char.toLower = rest := by
        rw [htail] at hlower
        exact (List.cons.inj (List.cons.inj hlower).2).2
      rw [htail]
      simp only [readRun_toLower, Option.map_some]
    · next hlower =>
      split
      · next tail htail =>
        obtain ⟨rest, hrest⟩ := (gap_toLower front.rest).2 ⟨tail, htail⟩
        exact absurd hrest (hlower rest)
      · rfl

/-- Two texts that differ in the case of letters only denote the same address. -/
theorem parse?_of_toLower {s t : String} (h : t.toList = s.toList.map Char.toLower) :
    parse? t = parse? s := by
  rw [parse?, parse?, h, read_toLower]
  cases read s.toList with
  | none => rfl
  | some found =>
    obtain ⟨x, rest⟩ := found
    cases rest <;> rfl

/-- A digit is no capital letter, and nothing higher than the hexadecimal ones. -/
theorem isLow_digitChar {d : Nat} (hd : d < 16) : IsLow d.digitChar := by
  interval_cases d <;> exact ⟨by decide, by decide⟩

/-- A text whose lower-case form is that of an address denotes the address. -/
theorem parse?_of_lowercase {s : String} {x : Ipv6} (h : Text.lowercase s = x.text) :
    parse? s = some x := by
  have hlow : ∀ c ∈ (Text.lowercase s).toList, IsLow c := by
    rw [h]
    exact forall_mem_text (fun _ => isLow_digitChar) ⟨by decide, by decide⟩
      ⟨by decide, by decide⟩ x
  rw [← parse?_of_toLower (Text.toList_lowercase_of_low hlow), h, parse?_text]

end Ipv6

/-- No IPv4 address is written like an IPv6 one. -/
theorem Ipv4.text_ne (v : Ipv4) (x : Ipv6) : v.text ≠ x.text := by
  intro h
  have hcolon : Ipv4.parse? x.text = none :=
    Ipv4.parse?_eq_none_of_colon (Ipv6.colon_mem_of_parse? x.parse?_text)
  rw [← h, v.parse?_text] at hcolon
  cases hcolon

/-- The normal form of a text is the written form of an IPv6 address exactly if the text denotes
that address. -/
theorem normalForm_eq_text_iff {s : String} {x : Ipv6} :
    normalForm s = x.text ↔ Ipv6.parse? (Text.trim s) = some x := by
  refine ⟨fun h => ?_, normalForm_of_parse?⟩
  unfold normalForm at h
  dsimp only at h
  split at h
  · next address haddress =>
    cases address with
    | v4 v => exact absurd h (v.text_ne x)
    | v6 y =>
      obtain rfl := Ipv6.text_injective h
      unfold Address.parse? at haddress
      split at haddress
      · cases haddress
      · simpa using haddress
  · exact Ipv6.parse?_of_lowercase h

end ReactorDeploy.Net
