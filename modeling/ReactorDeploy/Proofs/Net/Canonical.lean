import ReactorDeploy.Proofs.Net.LetterCase
import ReactorDeploy.Proofs.Text.Lowercased

/-!
# The normal form as a canonical form

Two texts that denote addresses, blanks at their ends aside, have the same normal form just if they
denote the same address, and the normal form denotes it, too. A text that denotes none has a normal
form that denotes none either, and every normal form is its own (`normalForm_canonical`).

What keeps malformed texts apart is that an address is written in few characters (`IsAddressChar`),
all of them low: a text that is an address in lower case was one before (`isLow_of_parse?`).
-/

namespace ReactorDeploy.Net

open Text (IsLow)

/-! ## The characters of an address -/

/-- A character that an address can be written with: a hexadecimal digit, or a separator. -/
def IsAddressChar (c : Char) : Prop :=
  (hexValue? c).isSome ∨ c = ':' ∨ c = '.'

/-- A decimal digit is a hexadecimal one. -/
theorem isSome_hexValue?_of_isDigit {c : Char} (h : c.isDigit) : (hexValue? c).isSome := by
  rw [Char.isDigit_iff_toNat] at h
  have hrange : 48 ≤ c.toNat ∧ c.toNat ≤ 57 := h
  rw [hexValue?_eq, if_pos hrange]
  rfl

/-- None of these characters is beyond the hexadecimal letters. -/
theorem IsAddressChar.isLow {c : Char} (h : IsAddressChar c) : IsLow c := by
  rcases h with hdigit | rfl | rfl
  · rw [hexValue?_eq] at hdigit
    have hf : 'f'.toNat = 102 := rfl
    unfold IsLow
    split_ifs at hdigit
    · omega
    · omega
    · omega
    · cases hdigit
  · exact ⟨by decide, by decide⟩
  · exact ⟨by decide, by decide⟩

/-- An IPv4 address is written with such characters. -/
theorem Ipv4.isAddressChar_of_mem_read {cs rest : List Char} {x : Ipv4}
    (h : read cs = some (x, rest)) : ∀ c ∈ cs, IsAddressChar c ∨ c ∈ rest := by
  intro c hc
  rcases mem_of_read h hc with hdot | hdigit | hrest
  · exact .inl (.inr (.inr hdot))
  · exact .inl (.inl (isSome_hexValue?_of_isDigit hdigit))
  · exact .inr hrest

namespace Ipv6

/-- A group is a run of hexadecimal digits. -/
theorem isAddressChar_of_mem_readGroup {cs rest : List Char} {g : UInt16}
    (h : readGroup cs = some (g, rest)) : ∀ c ∈ cs, IsAddressChar c ∨ c ∈ rest := by
  intro c hc
  simp only [readGroup] at h
  split at h
  · cases h
  · cases h
    let isHex := fun c => (hexValue? c).isSome
    rw [← List.takeWhile_append_dropWhile (p := isHex) (l := cs), List.mem_append] at hc
    exact hc.imp_left fun hdigit => .inl (List.mem_takeWhile_imp (p := isHex) hdigit)

/-- What comes before the next group is at most a colon. -/
theorem isAddressChar_of_mem_afterSeparator {first : Bool} {cs body : List Char}
    (h : afterSeparator first cs = some body) : ∀ c ∈ cs, IsAddressChar c ∨ c ∈ body := by
  unfold afterSeparator at h
  split at h
  · cases h
    exact fun c hc => .inr hc
  · cases h
    exact fun c hc => (List.mem_cons.1 hc).imp_left fun hcolon => .inr (.inl hcolon)
  · cases h

/-- A run of groups is written with such characters up to where it ends. -/
theorem isAddressChar_of_mem_readRun (first : Bool) (room : Nat) (cs : List Char) :
    ∀ c ∈ cs, IsAddressChar c ∨ c ∈ (readRun first room cs).rest := by
  induction room generalizing first cs with
  | zero => exact fun c hc => .inr hc
  | succ room ih =>
    rw [readRun]
    cases hsep : afterSeparator first cs with
    | none => exact fun c hc => .inr hc
    | some body =>
      intro c hc
      rcases isAddressChar_of_mem_afterSeparator hsep c hc with hchar | hbody
      · exact .inl hchar
      dsimp only
      split
      · next x rest hv4 =>
        split at hv4
        · cases hv4
        · exact Ipv4.isAddressChar_of_mem_read hv4 c hbody
      · split
        · exact .inr hc
        · next g rest hg =>
          exact (isAddressChar_of_mem_readGroup hg c hbody).elim .inl (ih false rest c)

/-- So is an IPv6 address. -/
theorem isAddressChar_of_mem_read {cs rest : List Char} {x : Ipv6}
    (h : read cs = some (x, rest)) : ∀ c ∈ cs, IsAddressChar c ∨ c ∈ rest := by
  intro c hc
  have hfront := isAddressChar_of_mem_readRun true 8 cs c hc
  unfold read at h
  dsimp only at h
  split at h
  · cases h
    exact hfront
  split at h
  · cases h
  split at h
  · next tail htail =>
    cases h
    rw [htail, List.mem_cons, List.mem_cons] at hfront
    rcases hfront with hchar | hcolon | hcolon | hback
    · exact .inl hchar
    · exact .inl (.inr (.inl hcolon))
    · exact .inl (.inr (.inl hcolon))
    · exact isAddressChar_of_mem_readRun true _ tail c hback
  · cases h

end Ipv6

namespace Address

/-- A text that denotes an address has nothing in it beyond the hexadecimal letters. -/
theorem isLow_of_parse? {s : String} {x : Address} (h : parse? s = some x) :
    ∀ c ∈ s.toList, IsLow c := by
  have hchars : ∀ c ∈ s.toList, IsAddressChar c ∨ c ∈ ([] : List Char) := by
    unfold parse? at h
    split at h
    · next x4 hv4 =>
      unfold Ipv4.parse? at hv4
      split at hv4
      · next hread => exact Ipv4.isAddressChar_of_mem_read hread
      · cases hv4
    · obtain ⟨x6, hv6, -⟩ := Option.map_eq_some_iff.1 h
      unfold Ipv6.parse? at hv6
      split at hv6
      · next hread => exact Ipv6.isAddressChar_of_mem_read hread
      · cases hv6
  exact fun c hc => (hchars c hc).elim IsAddressChar.isLow nofun

/-- Two texts that differ in the case of letters only denote the same address. -/
theorem parse?_of_toLower {s t : String} (h : t.toList = s.toList.map Char.toLower) :
    parse? t = parse? s := by
  have hv4 : Ipv4.parse? t = Ipv4.parse? s := by
    rw [Ipv4.parse?, Ipv4.parse?, h, Ipv4.read_toLower]
    cases Ipv4.read s.toList with
    | none => rfl
    | some found =>
      obtain ⟨x, rest⟩ := found
      cases rest <;> rfl
  rw [parse?, parse?, hv4, Ipv6.parse?_of_toLower h]

/-- A text that denotes no address denotes none in lower case. -/
theorem parse?_lowercase_of_none {s : String} (h : parse? s = none) :
    parse? (Text.lowercase s) = none := by
  cases hlower : parse? (Text.lowercase s) with
  | none => rfl
  | some x =>
    rw [parse?_of_toLower (Text.toList_lowercase_of_low (isLow_of_parse? hlower)), h] at hlower
    cases hlower

/-! ## Written addresses -/

/-- The written form of an address denotes it. -/
theorem parse?_text (x : Address) : parse? x.text = some x := by
  cases x with
  | v4 x => rw [text, parse?, Ipv4.parse?_text]
  | v6 x => exact parse?_of_ipv6 (Ipv6.parse?_text x)

/-- Nothing is trimmed off a written address. -/
theorem trim_text (x : Address) : Text.trim x.text = x.text := by
  cases x with
  | v4 x =>
    exact Text.trim_eq_self (Ipv6.forall_mem_ipv4_text (P := fun c => Text.isBlank c = false)
      (fun _ => Ipv6.isBlank_digitChar) rfl x)
  | v6 x => exact Ipv6.trim_text x

end Address

/-! ## Normal forms -/

/-- The address that a text denotes, blanks at its ends aside. -/
def denoted? (s : String) : Option Address :=
  Address.parse? (Text.trim s)

variable {s t : String} {x : Address}

/-- The normal form of a text that denotes an address is the written form of the address. -/
theorem normalForm_of_denoted (h : denoted? s = some x) : normalForm s = x.text := by
  have hparse : Address.parse? (Text.trim s) = some x := h
  unfold normalForm
  simp only [hparse]

/-- The normal form of any other text is the text in lower case. -/
theorem normalForm_of_not_denoted (h : denoted? s = none) :
    normalForm s = Text.lowercase (Text.trim s) := by
  have hparse : Address.parse? (Text.trim s) = none := h
  unfold normalForm
  simp only [hparse]

/-- Nothing is trimmed off a normal form. -/
theorem trim_normalForm (s : String) : Text.trim (normalForm s) = normalForm s := by
  cases h : denoted? s with
  | none => rw [normalForm_of_not_denoted h, Text.trim_lowercase_trim]
  | some x => rw [normalForm_of_denoted h, x.trim_text]

/-- A normal form denotes what the text denotes. -/
theorem denoted?_normalForm (s : String) : denoted? (normalForm s) = denoted? s := by
  rw [denoted?, trim_normalForm]
  cases h : denoted? s with
  | none => rw [normalForm_of_not_denoted h, Address.parse?_lowercase_of_none h]
  | some x => rw [normalForm_of_denoted h, x.parse?_text]

/-- A normal form is its own. -/
theorem normalForm_normalForm (s : String) : normalForm (normalForm s) = normalForm s := by
  have hdenoted := denoted?_normalForm s
  cases h : denoted? s with
  | none =>
    rw [h] at hdenoted
    rw [normalForm_of_not_denoted hdenoted, trim_normalForm, normalForm_of_not_denoted h,
      Text.lowercase_lowercase]
  | some x =>
    rw [h] at hdenoted
    rw [normalForm_of_denoted hdenoted, normalForm_of_denoted h]

/-- **The normal form is a canonical form.** Blanks at the ends of texts aside, the normal form of a
text that denotes an address denotes the same one, and the normal form of another text is equal to
it just if that text denotes the same address, too. The normal form of a text that denotes no
address denotes none either, so it is not that of any text that does. Every normal form is its own,
and there are no blanks at its ends. -/
theorem normalForm_canonical (s t : String) :
    (∀ x, denoted? s = some x →
      denoted? (normalForm s) = some x ∧
      (normalForm s = normalForm t ↔ denoted? t = some x)) ∧
    (denoted? s = none →
      denoted? (normalForm s) = none ∧
      ∀ x, denoted? t = some x → normalForm s ≠ normalForm t) ∧
    normalForm (normalForm s) = normalForm s ∧
    Text.trim (normalForm s) = normalForm s := by
  have hs := denoted?_normalForm s
  have ht := denoted?_normalForm t
  refine ⟨fun x hx => ⟨hs.trans hx, fun hsame => ?_, fun htx => ?_⟩, fun hnone =>
    ⟨hs.trans hnone, fun x hx hsame => ?_⟩, normalForm_normalForm s, trim_normalForm s⟩
  · rw [← ht, ← hsame, hs, hx]
  · rw [normalForm_of_denoted hx, normalForm_of_denoted htx]
  · rw [hsame, ht, hx, hnone] at hs
    cases hs

/-- Two spellings of an address have one normal form, and a text with a zone behind an address, which
denotes none, has another one. -/
theorem spellings_share_normal_form :
    denoted? " FD01:0::9" = some (.v6 ⟨0xfd01000000000000, 9⟩) ∧
      denoted? "fd01::0009" = some (.v6 ⟨0xfd01000000000000, 9⟩) ∧
      normalForm " FD01:0::9" = normalForm "fd01::0009" ∧
      denoted? "FD01::9%ETH0" = none ∧
      denoted? (normalForm "FD01::9%ETH0") = none ∧
      normalForm "FD01::9%ETH0" ≠ normalForm "fd01::0009" := by
  have hspelt : denoted? " FD01:0::9" = some (.v6 ⟨0xfd01000000000000, 9⟩) := by decide +kernel
  have hother : denoted? "fd01::0009" = some (.v6 ⟨0xfd01000000000000, 9⟩) := by decide +kernel
  have hzone : denoted? "FD01::9%ETH0" = none := by decide +kernel
  obtain ⟨hcanonical, -, -⟩ := normalForm_canonical " FD01:0::9" "fd01::0009"
  obtain ⟨-, hmalformed, -⟩ := normalForm_canonical "FD01::9%ETH0" "fd01::0009"
  obtain ⟨-, hsame⟩ := hcanonical _ hspelt
  obtain ⟨hnone, hdiffers⟩ := hmalformed hzone
  exact ⟨hspelt, hother, hsame.2 hother, hzone, hnone, hdiffers _ hother⟩

end ReactorDeploy.Net
