import Mathlib.Data.List.Basic
import Mathlib.Data.UInt

/-!
# The order of texts

Texts are compared character by character. Comparing their bytes in UTF-8 comes to the same
(`utf8_le_iff`): a character with a greater number has a greater first byte, or else the same one
and as many behind it, which are the digits of the number to the base 64.
-/

namespace ReactorDeploy.Text

/-- The bytes of a text in UTF-8. -/
def utf8 (s : String) : List UInt8 :=
  s.toUTF8.data.toList

/-- The bytes of a text are those of its characters, one after the other. -/
theorem utf8_eq_flatMap (s : String) : utf8 s = s.toList.flatMap String.utf8EncodeChar := by
  rw [utf8, String.toUTF8_eq_toByteArray, ← String.utf8Encode_toList, List.utf8Encode,
    List.data_toByteArray]

/-- The last `k` digits of a number to the base 64, as the bytes that continue a character. -/
def continuations : Nat → Nat → List UInt8
  | 0, _ => []
  | k + 1, n => continuations k (n / 64) ++ [UInt8.ofNat (n % 64 + 128)]

/-- Of two numbers that agree but for their last digits, the smaller one has the smaller digits. -/
theorem continuations_append_lt {k m n : Nat} (hlt : m < n) (heq : m / 64 ^ k = n / 64 ^ k)
    (xs ys : List UInt8) : continuations k m ++ xs < continuations k n ++ ys := by
  induction k generalizing m n xs ys with
  | zero =>
    rw [Nat.pow_zero, Nat.div_one, Nat.div_one] at heq
    omega
  | succ k ih =>
    rw [Nat.pow_succ', ← Nat.div_div_eq_div_mul, ← Nat.div_div_eq_div_mul] at heq
    rw [continuations, continuations, List.append_assoc, List.append_assoc]
    rcases Nat.lt_or_eq_of_le (Nat.div_le_div_right (c := 64) hlt.le) with hfront | hfront
    · exact ih hfront heq _ _
    · have hlast : UInt8.ofNat (m % 64 + 128) < UInt8.ofNat (n % 64 + 128) := by
        rw [UInt8.lt_iff_toNat_lt, UInt8.toNat_ofNat', UInt8.toNat_ofNat']
        omega
      rw [hfront]
      exact List.append_left_lt (List.cons_lt_cons_iff.2 (.inl hlast))

/-- How many bytes continue the character with a number. -/
def continuationCount (n : Nat) : Nat :=
  if n ≤ 0x7f then 0 else if n ≤ 0x7ff then 1 else if n ≤ 0xffff then 2 else 3

/-- The first byte of the character with a number: what the digits of the bytes behind it leave of
the number, above a mark that says how many these are. -/
def firstByte (n : Nat) : Nat :=
  if n ≤ 0x7f then n else if n ≤ 0x7ff then n / 64 + 0xc0
    else if n ≤ 0xffff then n / 4096 + 0xe0 else n / 262144 + 0xf0

/-- The numbers of characters end at `0x10ffff`. -/
theorem toNat_val_lt (c : Char) : c.val.toNat < 0x110000 := by
  rcases c.valid with hlow | ⟨-, hhigh⟩
  · omega
  · exact hhigh

theorem utf8EncodeChar_eq (c : Char) :
    String.utf8EncodeChar c = UInt8.ofNat (firstByte c.val.toNat) ::
      continuations (continuationCount c.val.toNat) c.val.toNat := by
  have hlt := toNat_val_lt c
  unfold String.utf8EncodeChar firstByte continuationCount
  generalize c.val.toNat = n at hlt
  dsimp only
  split
  · rfl
  split
  · have hfirst : n / 64 % 32 = n / 64 := by omega
    rw [hfirst]
    rfl
  split
  · have hfirst : n / 4096 % 16 = n / 4096 := by omega
    rw [hfirst]
    rfl
  · have hfirst : n / 262144 % 8 = n / 262144 := by omega
    have hsecond : n / 64 / 64 = n / 4096 := Nat.div_div_eq_div_mul n 64 64
    rw [hfirst, ← hsecond]
    rfl

/-- A greater number has a greater first byte, or else the same one, and then as many bytes behind
it and nothing else left of it. -/
theorem firstByte_lt_or {m n : Nat} (hlt : m < n) (hn : n < 0x110000) :
    firstByte m < firstByte n ∨ firstByte m = firstByte n ∧
      continuationCount m = continuationCount n ∧
      m / 64 ^ continuationCount m = n / 64 ^ continuationCount m := by
  unfold firstByte continuationCount
  split_ifs <;> omega

theorem firstByte_lt {n : Nat} (hn : n < 0x110000) : firstByte n < 256 := by
  unfold firstByte
  split_ifs <;> omega

/-- Whatever comes behind them, the bytes of a smaller character come before those of a greater
one. -/
theorem utf8EncodeChar_append_lt {c d : Char} (h : c < d) (xs ys : List UInt8) :
    String.utf8EncodeChar c ++ xs < String.utf8EncodeChar d ++ ys := by
  have hlt : c.val.toNat < d.val.toNat := h
  have hfirst : ∀ e : Char, (UInt8.ofNat (firstByte e.val.toNat)).toNat =
      firstByte e.val.toNat := fun e => by
    rw [UInt8.toNat_ofNat']
    exact Nat.mod_eq_of_lt (firstByte_lt (toNat_val_lt e))
  rw [utf8EncodeChar_eq, utf8EncodeChar_eq, List.cons_append, List.cons_append,
    List.cons_lt_cons_iff, UInt8.lt_iff_toNat_lt, hfirst, hfirst]
  refine (firstByte_lt_or hlt (toNat_val_lt d)).imp id fun ⟨heq, hcount, hrest⟩ => ?_
  rw [heq, ← hcount]
  exact ⟨rfl, continuations_append_lt hlt hrest xs ys⟩

/-- The bytes of texts are in the order of the texts. -/
theorem flatMap_utf8EncodeChar_lt {cs ds : List Char} (h : cs < ds) :
    cs.flatMap String.utf8EncodeChar < ds.flatMap String.utf8EncodeChar := by
  induction h with
  | @nil d ds =>
    rw [List.flatMap_nil, List.flatMap_cons, utf8EncodeChar_eq]
    exact List.nil_lt_cons _ _
  | rel hlt =>
    rw [List.flatMap_cons, List.flatMap_cons]
    exact utf8EncodeChar_append_lt hlt _ _
  | cons _ ih =>
    rw [List.flatMap_cons, List.flatMap_cons]
    exact List.append_left_lt ih

theorem utf8_lt_of_lt {s t : String} (h : s < t) : utf8 s < utf8 t := by
  rw [utf8_eq_flatMap, utf8_eq_flatMap]
  exact flatMap_utf8EncodeChar_lt h

/-- **Texts and their bytes in UTF-8 have one order.** -/
theorem utf8_le_iff {s t : String} : utf8 s ≤ utf8 t ↔ s ≤ t := by
  rw [← List.not_lt, ← String.not_lt]
  refine not_congr ⟨fun hbytes => ?_, utf8_lt_of_lt⟩
  by_contra hnot
  by_cases hlt : s < t
  · exact List.lt_asymm hbytes (utf8_lt_of_lt hlt)
  · obtain rfl := String.le_antisymm (String.not_lt.1 hnot) (String.not_lt.1 hlt)
    exact List.lt_irrefl _ hbytes

end ReactorDeploy.Text
