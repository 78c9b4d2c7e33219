import ReactorDeploy.Proofs.Text.Digits

/-!
# IPv4 addresses read back

The written form of an IPv4 address is read back as that address (`read_text`), whatever stands
behind it as long as it is no digit. The reader takes digits and dots only
(`mem_of_read`), so a text with a colon in it is no IPv4 address; this is what keeps the two
versions of addresses apart.
-/

namespace ReactorDeploy.Net.Ipv4

open Text (Stops)

variable {cs rest : List Char}

/-! ## Reading back -/

/-- A written octet is read back. -/
theorem readOctet_toDigits (n : UInt8) (hrest : Stops Char.isDigit rest) :
    readOctet (Nat.toDigits 10 n.toNat ++ rest) = some (n, rest) := by
  have hdigits : ∀ c ∈ Nat.toDigits 10 n.toNat, c.isDigit := fun c => isDigit_of_mem_toDigits_ten
  have hne : Nat.toDigits 10 n.toNat ≠ [] := Nat.toDigits_ne_nil
  have hlength : (Nat.toDigits 10 n.toNat).length ≤ 3 :=
    (Nat.length_toDigits_le_iff (by omega) (by omega)).2 (by have := n.toNat_lt; omega)
  have hzero : ¬ ((Nat.toDigits 10 n.toNat).head? = some '0' ∧
      1 < (Nat.toDigits 10 n.toNat).length) := by
    rintro ⟨hhead, hlong⟩
    rcases Nat.eq_zero_or_pos n.toNat with h | h
    · rw [h, Nat.toDigits_zero] at hlong
      exact absurd hlong (by decide)
    · exact head?_toDigits_ne_zero (by omega) h hhead
  rw [readOctet, Text.takeWhile_run hdigits hrest, Text.dropWhile_run hdigits hrest,
    digitsValue_toDigits (by omega) (by omega)]
  have hvalue : ¬ 255 < n.toNat := by have := n.toNat_lt; omega
  simp [hne, Nat.not_lt.2 hlength, hvalue]
  simpa using hzero

/-- The characters of a written address. -/
theorem toList_text (x : Ipv4) : x.text.toList =
    Nat.toDigits 10 x.a.toNat ++ '.' :: (Nat.toDigits 10 x.b.toNat ++
      '.' :: (Nat.toDigits 10 x.c.toNat ++ '.' :: Nat.toDigits 10 x.d.toNat)) := by
  simp [text]

/-- The written form of an address is read back. -/
theorem read_text (x : Ipv4) (hrest : Stops Char.isDigit rest) :
    read (x.text.toList ++ rest) = some (x, rest) := by
  have hdot : ∀ tail, Stops Char.isDigit ('.' :: tail) := fun tail =>
    Text.stops_cons.2 (by decide)
  simp only [toList_text, List.append_assoc, List.cons_append]
  simp [read, readNext, readOctet_toDigits, hdot, hrest]

/-- The written form of an address denotes it. -/
theorem parse?_text (x : Ipv4) : parse? x.text = some x := by
  have h := read_text x Text.stops_nil
  rw [List.append_nil] at h
  rw [parse?, h]

/-! ## What the reader takes -/

/-- An octet takes every digit there is. -/
theorem readOctet_rest {n : UInt8} (h : readOctet cs = some (n, rest)) :
    rest = cs.dropWhile Char.isDigit := by
  simp only [readOctet] at h
  split at h
  · cases h
  split at h
  · cases h
  split at h
  · cases h
  · cases h; rfl

/-- An octet is a run of digits. -/
theorem mem_of_readOctet {n : UInt8} {c : Char} (h : readOctet cs = some (n, rest)) (hc : c ∈ cs) :
    c.isDigit ∨ c ∈ rest := by
  rw [← List.takeWhile_append_dropWhile (p := Char.isDigit) (l := cs), List.mem_append] at hc
  rw [readOctet_rest h]
  exact hc.imp_left fun h => by simpa using List.mem_takeWhile_imp h

/-- A further octet stands behind a dot. -/
theorem exists_of_readNext {n : UInt8} (h : readNext cs = some (n, rest)) :
    ∃ body, cs = '.' :: body ∧ readOctet body = some (n, rest) := by
  unfold readNext at h
  split at h
  · exact ⟨_, rfl, h⟩
  · cases h

/-- A further octet is a dot and a run of digits. -/
theorem mem_of_readNext {n : UInt8} {c : Char} (h : readNext cs = some (n, rest)) (hc : c ∈ cs) :
    c = '.' ∨ c.isDigit ∨ c ∈ rest := by
  obtain ⟨body, rfl, hbody⟩ := exists_of_readNext h
  exact (List.mem_cons.1 hc).imp_right (mem_of_readOctet hbody)

/-- An address consists of digits and dots. -/
theorem mem_of_read {x : Ipv4} {c : Char} (h : read cs = some (x, rest)) (hc : c ∈ cs) :
    c = '.' ∨ c.isDigit ∨ c ∈ rest := by
  simp only [read, Option.bind_eq_bind, Option.bind_eq_some_iff] at h
  obtain ⟨⟨a, cs₁⟩, ha, ⟨b, cs₂⟩, hb, ⟨_, cs₃⟩, hc₃, ⟨d, cs₄⟩, hd, hx⟩ := h
  obtain ⟨-, rfl⟩ : _ ∧ cs₄ = rest := by simpa using hx
  rcases mem_of_readOctet ha hc with hdigit | hc
  · exact .inr (.inl hdigit)
  rcases mem_of_readNext hb hc with hdot | hdigit | hc
  · exact .inl hdot
  · exact .inr (.inl hdigit)
  rcases mem_of_readNext hc₃ hc with hdot | hdigit | hc
  · exact .inl hdot
  · exact .inr (.inl hdigit)
  exact mem_of_readNext hd hc

/-- A text that begins with an address has a dot in it. -/
theorem dot_mem_of_read {x : Ipv4} (h : read cs = some (x, rest)) : '.' ∈ cs := by
  simp only [read, Option.bind_eq_bind, Option.bind_eq_some_iff] at h
  obtain ⟨⟨a, cs₁⟩, ha, ⟨b, cs₂⟩, hb, -⟩ := h
  obtain ⟨body, (hbody : cs₁ = '.' :: body), -⟩ := exists_of_readNext hb
  have hcs₁ : '.' ∈ cs₁ := hbody ▸ List.mem_cons_self
  rw [readOctet_rest ha] at hcs₁
  exact (List.dropWhile_suffix _).subset hcs₁

/-- A text with a colon in it denotes no IPv4 address. -/
theorem parse?_eq_none_of_colon {s : String} (h : ':' ∈ s.toList) : parse? s = none := by
  unfold parse?
  split
  · next x hread =>
    rcases mem_of_read hread h with hdot | hdigit | hrest
    · exact absurd hdot (by decide)
    · exact absurd hdigit (by decide)
    · cases hrest
  · rfl

end ReactorDeploy.Net.Ipv4
