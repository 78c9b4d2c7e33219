import ReactorDeploy.Net.Ipv6
import ReactorDeploy.Proofs.Net.Ipv4

/-!
# IPv6 addresses read back

The written form of every IPv6 address denotes that address (`parse?_text`), in each of its three
shapes: eight groups, groups around `::`, and the dotted form of the addresses that embed an IPv4
one. The argument goes through the groups. An address is its eight groups
(`ofGroups_groups`); a written run of groups is read back as those groups, wherever it stands
(`readRun_runChars`); and the groups that `::` leaves out are zeros (`eq_longestZeroRun`).

A text that denotes an address has a colon in it (`colon_mem_of_parse?`), so it is no IPv4 address.
-/

namespace ReactorDeploy.Net.Ipv6

open Text (Stops)

/-! ## Groups and halves -/

/-- Shifting a group in from the right is a multiplication and an addition. -/
theorem toNat_shift_or (w : UInt64) (g : UInt16) :
    (w <<< 16 ||| g.toUInt64).toNat = w.toNat * 65536 % 2 ^ 64 + g.toNat := by
  have hg := g.toNat_lt
  have hshift : w.toNat <<< 16 % 2 ^ 64 = (w.toNat % 2 ^ 48) <<< 16 := by
    simp only [Nat.shiftLeft_eq]
    omega
  rw [UInt64.toNat_or, UInt64.toNat_shiftLeft]
  simp only [UInt16.toNat_toUInt64, UInt64.reduceToNat, Nat.reduceMod]
  rw [hshift, ← Nat.shiftLeft_add_eq_or_of_lt (by simpa using hg), Nat.shiftLeft_eq]
  omega

/-- The number that a half of an address is, by its groups. -/
theorem toNat_halfOfGroups (a b c d : UInt16) : (halfOfGroups [a, b, c, d]).toNat =
    a.toNat * 2 ^ 48 + b.toNat * 2 ^ 32 + c.toNat * 2 ^ 16 + d.toNat := by
  have := a.toNat_lt
  have := b.toNat_lt
  have := c.toNat_lt
  have := d.toNat_lt
  simp only [halfOfGroups, List.foldl, toNat_shift_or, UInt64.toNat_zero]
  omega

/-- A half is made of its groups. -/
theorem halfOfGroups_halfGroups (w : UInt64) : halfOfGroups (halfGroups w) = w := by
  apply UInt64.toNat_inj.1
  have := w.toNat_lt
  rw [halfGroups, toNat_halfOfGroups]
  simp [Nat.shiftRight_eq_div_pow]
  omega

@[simp] theorem length_halfGroups (w : UInt64) : (halfGroups w).length = 4 := rfl

@[simp] theorem length_groups (x : Ipv6) : x.groups.length = 8 := rfl

/-- An address is made of its groups. -/
theorem ofGroups_groups (x : Ipv6) : ofGroups x.groups = x := by
  rw [ofGroups, groups, List.take_left' (length_halfGroups _),
    List.drop_left' (length_halfGroups _), halfOfGroups_halfGroups, halfOfGroups_halfGroups]

/-- The groups of an address that embeds an IPv4 address. -/
theorem groups_of_mapped? {x : Ipv6} {v : Ipv4} (h : x.mapped? = some v) :
    x.groups = [0, 0, 0, 0, 0, 0xffff] ++ embeddedGroups v := by
  unfold mapped? at h
  split at h
  · next hx =>
    obtain ⟨hnetwork, hinterface⟩ := hx
    cases h
    have := x.interface.toNat_lt
    have hhigh := congrArg UInt64.toNat hinterface
    simp [Nat.shiftRight_eq_div_pow] at hhigh
    simp [groups, hnetwork, halfGroups, embeddedGroups, ← UInt16.toNat_inj,
      Nat.shiftRight_eq_div_pow]
    omega
  · cases h

/-! ## A written run of groups -/

/-- Groups as they are written, with a colon before each of them, the first one excepted if it
starts a text. -/
def runChars : Bool → List UInt16 → List Char
  | _, [] => []
  | true, g :: gs => Nat.toDigits 16 g.toNat ++ runChars false gs
  | false, g :: gs => ':' :: (Nat.toDigits 16 g.toNat ++ runChars false gs)

/-- Groups between colons. -/
theorem toList_groupsText (gs : List UInt16) : (groupsText gs).toList = runChars true gs := by
  have hrest : ∀ g gs, (groupsText (g :: gs)).toList =
      Nat.toDigits 16 g.toNat ++ runChars false gs := by
    intro g gs
    induction gs generalizing g with
    | nil => simp [groupsText, groupText, runChars]
    | cons g' gs ih =>
      have ih := ih g'
      simp only [groupsText, List.map_cons] at ih ⊢
      rw [String.intercalate_cons_cons, String.toList_append, String.toList_append, ih]
      simp [groupText, runChars]
  cases gs with
  | nil => rfl
  | cons g gs => rw [hrest, runChars]

/-- A hexadecimal digit is no separator. -/
theorem ne_of_mem_toDigits {c sep : Char} {n : Nat} (hsep : hexValue? sep = none)
    (h : c ∈ Nat.toDigits 16 n) : c ≠ sep := by
  rintro rfl
  have := isSome_hexValue?_of_mem_toDigits (by omega) (by omega) h
  simp [hsep] at this

/-- No dot is in written groups. -/
theorem dot_notMem_runChars (first : Bool) (gs : List UInt16) : '.' ∉ runChars first gs := by
  induction gs generalizing first with
  | nil => cases first <;> simp [runChars]
  | cons g gs ih =>
    have hg : '.' ∉ Nat.toDigits 16 g.toNat := fun h => ne_of_mem_toDigits rfl h rfl
    cases first <;> simp [runChars, hg, ih]

/-- What can stand behind a run of groups: nothing, or the two colons. -/
def EndsRun (rest : List Char) : Prop :=
  rest = [] ∨ ∃ tail, rest = ':' :: ':' :: tail

/-- Behind a group there is nothing, or the colon of the next group, or the two colons. -/
theorem stops_isHex {gs : List UInt16} {rest : List Char} (hrest : EndsRun rest) :
    Stops (fun c => (hexValue? c).isSome) (runChars false gs ++ rest) := by
  cases gs with
  | nil =>
    rcases hrest with rfl | ⟨tail, rfl⟩
    · exact Text.stops_nil
    · exact Text.stops_cons.2 rfl
  | cons g gs => exact Text.stops_cons.2 rfl

/-- A written group is read back. -/
theorem readGroup_toDigits (g : UInt16) {rest : List Char}
    (hrest : Stops (fun c => (hexValue? c).isSome) rest) :
    readGroup (Nat.toDigits 16 g.toNat ++ rest) = some (g, rest) := by
  have hdigits : ∀ c ∈ Nat.toDigits 16 g.toNat, (hexValue? c).isSome := fun c =>
    isSome_hexValue?_of_mem_toDigits (by omega) (by omega)
  have hne : Nat.toDigits 16 g.toNat ≠ [] := Nat.toDigits_ne_nil
  have hlength : (Nat.toDigits 16 g.toNat).length ≤ 4 :=
    (Nat.length_toDigits_le_iff (by omega) (by omega)).2 g.toNat_lt
  rw [readGroup, Text.takeWhile_run hdigits hrest, Text.dropWhile_run hdigits hrest,
    digitsValue_toDigits (by omega) (by omega)]
  simp [hne, Nat.not_lt.2 hlength]

/-- The two colons start no group. -/
theorem readGroup_colon (cs : List Char) : readGroup (':' :: cs) = none := by
  simp [readGroup, show hexValue? ':' = none from rfl]

/-- A text without a dot does not begin with an IPv4 address. -/
theorem ipv4_read_eq_none {cs : List Char} (h : '.' ∉ cs) : Ipv4.read cs = none := by
  cases hread : Ipv4.read cs with
  | none => rfl
  | some found => exact absurd (Ipv4.dot_mem_of_read hread) h

/-- Nothing is read where a run has ended. -/
theorem readRun_of_endsRun (first : Bool) (room : Nat) {rest : List Char} (hrest : EndsRun rest)
    (hdot : '.' ∉ rest) : readRun first room rest = ⟨[], false, rest⟩ := by
  cases room with
  | zero => rw [readRun]
  | succ room =>
    rcases hrest with rfl | ⟨tail, rfl⟩
    · cases first
      · rfl
      · cases room <;> rfl
    · have hdot' : '.' ∉ ':' :: tail := fun h => hdot (List.mem_cons_of_mem _ h)
      cases first <;>
        simp [readRun, afterSeparator, ipv4_read_eq_none, hdot, hdot', readGroup_colon]

/-- A written run of groups is read back as those groups, if there is room for them. -/
theorem readRun_runChars (first : Bool) (room : Nat) (gs : List UInt16) {rest : List Char}
    (hroom : gs.length ≤ room) (hrest : EndsRun rest) (hdot : '.' ∉ rest) :
    readRun first room (runChars first gs ++ rest) = ⟨gs, false, rest⟩ := by
  induction gs generalizing first room with
  | nil =>
    have hnil : runChars first [] = [] := by cases first <;> rfl
    rw [hnil, List.nil_append]
    exact readRun_of_endsRun first room hrest hdot
  | cons g gs ih =>
    obtain ⟨room, rfl⟩ : ∃ n, room = n + 1 := ⟨room - 1, by simp at hroom; omega⟩
    have hbody : afterSeparator first (runChars first (g :: gs) ++ rest) =
        some (Nat.toDigits 16 g.toNat ++ (runChars false gs ++ rest)) := by
      cases first <;> simp [runChars, afterSeparator]
    have hnoDot : '.' ∉ Nat.toDigits 16 g.toNat ++ (runChars false gs ++ rest) := by
      have hg : '.' ∉ Nat.toDigits 16 g.toNat := fun h => ne_of_mem_toDigits rfl h rfl
      simp [hg, dot_notMem_runChars, hdot]
    have hnone : (if room = 0 then none else
        Ipv4.read (Nat.toDigits 16 g.toNat ++ (runChars false gs ++ rest))) = none := by
      rw [ipv4_read_eq_none hnoDot, ite_self]
    rw [readRun, hbody]
    dsimp only
    rw [hnone, readGroup_toDigits g (stops_isHex hrest)]
    simp only [ih false room (by simpa using hroom)]

/-! ## The zeros left out -/

/-- A list starts with as many zeros as its zero run is long. -/
theorem eq_replicate_zeroRun (gs : List UInt16) :
    gs = List.replicate (zeroRun gs) 0 ++ gs.drop (zeroRun gs) := by
  induction gs with
  | nil => rfl
  | cons g gs ih =>
    by_cases hg : g = 0
    · subst hg
      have hzeros : zeroRun ((0 : UInt16) :: gs) = zeroRun gs + 1 := by simp [zeroRun]
      rw [hzeros, List.replicate_succ, List.drop_succ_cons, List.cons_append, ← ih]
    · have hzeros : zeroRun (g :: gs) = 0 := by simp [zeroRun, hg]
      rw [hzeros]
      rfl

/-- The longest zero run is where it is said to be: the groups are those before it, as many zeros
as it is long, and those behind it. -/
theorem eq_longestZeroRun (first : Nat) (gs : List UInt16) :
    ∃ front back, gs = front ++ List.replicate (longestZeroRun first gs).2 0 ++ back ∧
      (longestZeroRun first gs).1 = first + front.length := by
  induction gs generalizing first with
  | nil => exact ⟨[], [], rfl, rfl⟩
  | cons g gs ih =>
    rw [longestZeroRun]
    split
    · exact ⟨[], (g :: gs).drop (zeroRun (g :: gs)), eq_replicate_zeroRun (g :: gs), rfl⟩
    · obtain ⟨front, back, hgs, hstart⟩ := ih (first + 1)
      refine ⟨g :: front, back, ?_, ?_⟩
      · exact congrArg (g :: ·) hgs
      · rw [hstart, List.length_cons]
        omega

/-! ## Whole addresses -/

/-- Eight groups in a row are read back. -/
theorem read_groups {gs : List UInt16} (h : gs.length = 8) :
    read (runChars true gs) = some (ofGroups gs, []) := by
  have hend : EndsRun [] := .inl rfl
  have hrun := readRun_runChars true 8 gs (by omega) hend (by simp)
  rw [List.append_nil] at hrun
  rw [read, hrun]
  simp [h]

/-- Groups around two colons are read back, zeros filling the gap. -/
theorem read_fill {front back : List UInt16} (h : front.length + back.length < 7) :
    read (runChars true front ++ ':' :: ':' :: runChars true back) =
      some (ofGroups (fill front back), []) := by
  have hdot : '.' ∉ ':' :: ':' :: runChars true back := by simp [dot_notMem_runChars]
  have hfront := readRun_runChars true 8 front (by omega) (.inr ⟨_, rfl⟩) hdot
  have hend : EndsRun [] := .inl rfl
  have hback := readRun_runChars true (7 - front.length) back (by omega) hend (by simp)
  rw [List.append_nil] at hback
  have hlength : front.length ≠ 8 := by omega
  rw [read, hfront]
  simp [hlength, hback]

/-- The dotted form of an embedded IPv4 address is read back. -/
theorem read_mapped (v : Ipv4) : read ("::ffff:" ++ v.text).toList =
    some (ofGroups ([0, 0, 0, 0, 0, 0xffff] ++ embeddedGroups v), []) := by
  have hv : Ipv4.read v.text.toList = some (v, []) := by
    simpa using Ipv4.read_text v Text.stops_nil
  have hfront : readRun true 8 (':' :: ':' :: 'f' :: 'f' :: 'f' :: 'f' :: ':' :: v.text.toList) =
      ⟨[], false, ':' :: ':' :: 'f' :: 'f' :: 'f' :: 'f' :: ':' :: v.text.toList⟩ := rfl
  have htail : readRun false 6 (':' :: v.text.toList) = ⟨embeddedGroups v, true, []⟩ := by
    simp [readRun, afterSeparator, hv]
  have hback : readRun true 7 ('f' :: 'f' :: 'f' :: 'f' :: ':' :: v.text.toList) =
      ⟨0xffff :: embeddedGroups v, true, []⟩ := by
    have hgroup : readGroup ('f' :: 'f' :: 'f' :: 'f' :: ':' :: v.text.toList) =
        some (0xffff, ':' :: v.text.toList) := rfl
    have hdigit : Ipv4.read ('f' :: 'f' :: 'f' :: 'f' :: ':' :: v.text.toList) = none := rfl
    rw [readRun, afterSeparator]
    simp only [hgroup, hdigit, htail, ite_self]
  have hchars : ("::ffff:" ++ v.text).toList =
      ':' :: ':' :: 'f' :: 'f' :: 'f' :: 'f' :: ':' :: v.text.toList := by simp
  rw [hchars, read, hfront]
  simp [hback, fill, embeddedGroups]

/-- The written form of an address is read back. -/
theorem read_text (x : Ipv6) : read x.text.toList = some (x, []) := by
  unfold text
  split
  · next v hv =>
    rw [read_mapped, ← groups_of_mapped? hv, ofGroups_groups]
  · obtain ⟨front, back, hgs, hstart⟩ := eq_longestZeroRun 0 x.groups
    rw [Nat.zero_add] at hstart
    dsimp only
    -- Only a run of two zero groups or more gives way to two colons.
    split
    · next hlong =>
      generalize hzeros : (longestZeroRun 0 x.groups).2 = zeros at hgs hlong
      have hlength : front.length + zeros + back.length = 8 := by
        simpa [Nat.add_assoc] using (congrArg List.length hgs).symm
      have hfront : x.groups.take (longestZeroRun 0 x.groups).1 = front := by
        rw [hstart, hgs, List.append_assoc, List.take_left]
      have hback : x.groups.drop ((longestZeroRun 0 x.groups).1 + zeros) = back := by
        rw [hstart, hgs]
        exact List.drop_left' (by simp)
      have hfill : fill front back = x.groups := by
        rw [fill, hgs, show 8 - front.length - back.length = zeros by omega]
      rw [hfront, hback, String.toList_append, String.toList_append, toList_groupsText,
        toList_groupsText, List.append_assoc]
      exact (read_fill (by omega)).trans (by rw [hfill, ofGroups_groups])
    · rw [toList_groupsText, read_groups (length_groups x), ofGroups_groups]

/-- The written form of an address denotes it. -/
theorem parse?_text (x : Ipv6) : parse? x.text = some x := by
  rw [parse?, read_text]

/-- Addresses with the same written form are the same. -/
theorem text_injective : Function.Injective text := by
  intro x y h
  have hparse : parse? x.text = parse? y.text := congrArg parse? h
  simpa [parse?_text] using hparse

/-! ## The colon of an address -/

/-- A further group stands behind a colon. -/
theorem colon_mem_of_readRun {room : Nat} {cs : List Char}
    (h : (readRun false room cs).groups ≠ []) : ':' ∈ cs := by
  cases room with
  | zero => exact absurd rfl h
  | succ room =>
    rw [readRun] at h
    cases hsep : afterSeparator false cs with
    | none => simp [hsep] at h
    | some body =>
      unfold afterSeparator at hsep
      split at hsep
      · contradiction
      · exact List.mem_cons_self
      · cases hsep

/-- What follows a group is the end of the text that the group starts. -/
theorem readGroup_rest {g : UInt16} {cs rest : List Char} (h : readGroup cs = some (g, rest)) :
    rest <:+ cs := by
  simp only [readGroup] at h
  split at h
  · cases h
  · cases h
    exact List.dropWhile_suffix _

/-- More than the two groups of an IPv4 address do not fit into a text without a colon. -/
theorem colon_mem_of_readRun_true {room : Nat} {cs : List Char}
    (h : 2 < (readRun true room cs).groups.length) : ':' ∈ cs := by
  cases room with
  | zero => simp [readRun] at h
  | succ room =>
    rw [readRun, afterSeparator] at h
    dsimp only at h
    split at h
    · simp [embeddedGroups] at h
    · split at h
      · simp at h
      · next g rest hg =>
        have hmore : (readRun false room rest).groups ≠ [] := by
          intro hnil
          simp [hnil] at h
        exact (readGroup_rest hg).subset (colon_mem_of_readRun hmore)

/-- What is left behind a run of groups is the end of the text, unless an IPv4 address ended the
run. -/
theorem readRun_rest {first : Bool} {room : Nat} {cs : List Char}
    (h : (readRun first room cs).dotted = false) : (readRun first room cs).rest <:+ cs := by
  induction room generalizing first cs with
  | zero => exact List.suffix_rfl
  | succ room ih =>
    rw [readRun] at h ⊢
    cases hsep : afterSeparator first cs with
    | none => exact List.suffix_rfl
    | some body =>
      have hbody : body <:+ cs := by
        unfold afterSeparator at hsep
        split at hsep
        · cases hsep
          exact List.suffix_rfl
        · cases hsep
          exact List.suffix_cons _ _
        · cases hsep
      simp only [hsep] at h ⊢
      split at h
      · cases h
      · split at h
        · exact List.suffix_rfl
        · next g rest hg => exact ((ih h).trans (readGroup_rest hg)).trans hbody

/-- A text that denotes an address has a colon in it. -/
theorem colon_mem_of_parse? {s : String} {x : Ipv6} (h : parse? s = some x) : ':' ∈ s.toList := by
  unfold parse? at h
  split at h
  · next _ hread =>
    unfold read at hread
    dsimp only at hread
    split at hread
    · next hgroups =>
      have hmany : 2 < (readRun true 8 s.toList).groups.length := by omega
      exact colon_mem_of_readRun_true hmany
    split at hread
    · cases hread
    · next hdotted =>
      split at hread
      · next hrest =>
        have hsuffix := readRun_rest (Bool.not_eq_true _ ▸ hdotted)
        rw [hrest] at hsuffix
        exact hsuffix.subset List.mem_cons_self
      · cases hread
  · cases h

end ReactorDeploy.Net.Ipv6
