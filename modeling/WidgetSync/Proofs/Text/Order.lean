import Mathlib.Algebra.Group.Nat.Defs
import Mathlib.Tactic.SplitIfs
import WidgetSync.Proofs.Text.Utf8

/-! Texts stand in one order, whether they are compared character by character or by the bytes of their encodings. -/
namespace WidgetSync.Text.Utf8

/-- The bytes part at some place, and from there on those of the first are below those of the second. -/
inductive Below : List UInt8 → List UInt8 → Prop
  | here {b b' : UInt8} (h : b < b') (rest rest' : List UInt8) : Below (b :: rest) (b' :: rest')
  | later (b : UInt8) {bytes bytes' : List UInt8} (h : Below bytes bytes') : Below (b :: bytes) (b :: bytes')

theorem Below.append_lt {bytes bytes' : List UInt8} (h : Below bytes bytes') (more more' : List UInt8) :
    bytes ++ more < bytes' ++ more' := by
  induction h with
  | here h rest rest' => exact List.cons_lt_cons_iff.mpr (.inl h)
  | later b _ ih => exact List.cons_lt_cons_iff.mpr (.inr ⟨rfl, ih⟩)

/-- How many bytes follow the first one of a code point. -/
def followerCount (n : Nat) : Nat := if n ≤ 0x7F then 0 else if n ≤ 0x7FF then 1 else if n ≤ 0xFFFF then 2 else 3

/-- The first byte of a code point. -/
def leadOf (n : Nat) : Nat :=
  if n ≤ 0x7F then n
  else if n ≤ 0x7FF then n / 64 + 0xC0
  else if n ≤ 0xFFFF then n / 64 ^ 2 + 0xE0
  else n / 64 ^ 3 + 0xF0

/-- The bytes that follow, with the low bits of the code point. -/
def followersOf : Nat → Nat → List UInt8
  | 0, _ => []
  | count + 1, n => follower (n / 64 ^ count % 64) :: followersOf count n

theorem lt_of_valid (c : Char) : c.val.toNat < 0x110000 := by
  have hvalid := c.valid
  simp only [UInt32.isValidChar, Nat.isValidChar] at hvalid
  omega

theorem utf8EncodeChar_eq (c : Char) : String.utf8EncodeChar c =
    UInt8.ofNat (leadOf c.val.toNat) :: followersOf (followerCount c.val.toNat) c.val.toNat := by
  have hvalid := lt_of_valid c
  rw [String.utf8EncodeChar, leadOf, followerCount]
  generalize c.val.toNat = n at hvalid ⊢
  -- In each length the code point has no more bits than the lead byte has room for.
  split
  · rfl
  split
  · have hlead : n / 64 % 32 = n / 64 := by omega
    rw [hlead]
    simp [followersOf, follower]
  split
  · have hlead : n / 4096 % 16 = n / 4096 := by omega
    rw [hlead]
    simp [followersOf, follower]
  · have hlead : n / 262144 % 8 = n / 262144 := by omega
    rw [hlead]
    simp [followersOf, follower]

theorem below_of_lt {n k : Nat} (h : n < k) (hk : k < 256) (rest rest' : List UInt8) :
    Below (UInt8.ofNat n :: rest) (UInt8.ofNat k :: rest') := by
  refine .here ?_ rest rest'
  rw [UInt8.lt_iff_toNat_lt, UInt8.toNat_ofNat', UInt8.toNat_ofNat', Nat.mod_eq_of_lt hk, Nat.mod_eq_of_lt]
  · exact h
  · exact Nat.lt_trans h hk

/-- Where the high bits are the same the low ones decide. -/
theorem below_followersOf {n k : Nat} (h : n < k) {count : Nat} (hsame : n / 64 ^ count = k / 64 ^ count) :
    Below (followersOf count n) (followersOf count k) := by
  induction count with
  | zero =>
    rw [Nat.pow_zero, Nat.div_one, Nat.div_one] at hsame
    exact absurd hsame (Nat.ne_of_lt h)
  | succ count ih =>
    rw [Nat.pow_succ, ← Nat.div_div_eq_div_mul, ← Nat.div_div_eq_div_mul] at hsame
    rw [followersOf, followersOf]
    -- Six bits at a time from the highest on: they differ here, or the lower ones decide.
    rcases Nat.lt_or_eq_of_le (Nat.div_le_div_right (c := 64 ^ count) (Nat.le_of_lt h)) with hlt | heq
    · exact below_of_lt (by omega) (by omega) _ _
    · rw [heq]
      exact .later _ (ih heq)

/-- A longer encoding has a greater first byte. -/
theorem leadOf_lt_or_eq {n k : Nat} (h : n < k) : leadOf n < leadOf k ∨ leadOf n = leadOf k ∧
    followerCount n = followerCount k ∧ n / 64 ^ followerCount n = k / 64 ^ followerCount n := by
  simp only [leadOf, followerCount]
  split_ifs <;> omega

theorem leadOf_lt {n : Nat} (h : n < 0x110000) : leadOf n < 256 := by
  rw [leadOf]
  split_ifs <;> omega

/-- Of two characters the encodings part, so that neither starts the other. -/
theorem below_utf8EncodeChar {c d : Char} (h : c < d) : Below (String.utf8EncodeChar c) (String.utf8EncodeChar d) := by
  rw [utf8EncodeChar_eq, utf8EncodeChar_eq]
  have hcode : c.val.toNat < d.val.toNat := h
  rcases leadOf_lt_or_eq hcode with hlead | ⟨hlead, hcount, hsame⟩
  · exact below_of_lt hlead (leadOf_lt (lt_of_valid d)) _ _
  · rw [hlead, ← hcount]
    exact .later _ (below_followersOf hcode hsame)

theorem encode_lt_encode {cs ds : List Char} (h : cs < ds) : encode cs < encode ds := by
  induction cs generalizing ds with
  | nil =>
    cases ds with
    | nil => exact absurd h (List.lt_irrefl _)
    | cons d ds =>
      obtain ⟨b, rest, hb⟩ := List.exists_cons_of_ne_nil (encode_ne_nil (List.cons_ne_nil d ds))
      rw [hb]
      exact List.nil_lt_cons b rest
  | cons c cs ih =>
    cases ds with
    | nil => exact absurd h (List.not_lt_nil _)
    | cons d ds =>
      rw [encode_cons, encode_cons]
      rcases List.cons_lt_cons_iff.mp h with hc | ⟨rfl, hrest⟩
      · exact (below_utf8EncodeChar hc).append_lt _ _
      · exact List.append_left_lt (ih hrest)

/-- The order of the keys of a map is that of their bytes. -/
theorem compare_eq_lt_iff {s t : String} : compare s t = .lt ↔ s.toUTF8.toList < t.toUTF8.toList := by
  have hcompare : compare s t = .lt ↔ s.toList < t.toList := compareOfLessAndEq_eq_lt
  rw [hcompare, toList_toUTF8, toList_toUTF8]
  refine ⟨encode_lt_encode, fun h => ?_⟩
  rcases Std.lt_trichotomy s.toList t.toList with hlt | heq | hgt
  · exact hlt
  · rw [heq] at h
    exact absurd h (List.lt_irrefl _)
  · exact absurd h (List.lt_asymm (encode_lt_encode hgt))

end WidgetSync.Text.Utf8
