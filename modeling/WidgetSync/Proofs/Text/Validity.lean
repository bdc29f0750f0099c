import WidgetSync.Proofs.Text.Utf8

/-! Nothing but encodings is decoded: bytes that are read as characters are the bytes of these characters. -/
namespace WidgetSync.Text.Utf8

section Bytes

variable {b : UInt8} {n : Nat}

/-- A byte in the range of followers, by the bits that it holds. -/
theorem eq_follower {low high : UInt8} (hl : 128 ≤ low.toNat) (hh : high.toNat ≤ 191) (hb : low ≤ b ∧ b ≤ high) :
    ∃ n < 64, b = follower n ∧ low.toNat ≤ n + 128 ∧ n + 128 ≤ high.toNat := by
  rw [UInt8.le_iff_toNat_le, UInt8.le_iff_toNat_le] at hb
  have hn : b.toNat - 128 < 64 := by omega
  refine ⟨b.toNat - 128, hn, ?_, by omega, by omega⟩
  rw [← UInt8.toNat_inj, toNat_follower hn]
  omega

theorem eq_follower_of_isContinuation (h : isContinuation b = true) : ∃ n < 64, b = follower n := by
  rw [isContinuation, Bool.and_eq_true, decide_eq_true_eq, decide_eq_true_eq] at h
  have hlow : 128 ≤ (0x80 : UInt8).toNat := Nat.le_refl 128
  have hhigh : (0xBF : UInt8).toNat ≤ 191 := Nat.le_refl 191
  obtain ⟨n, hn, hb, _⟩ := eq_follower hlow hhigh h
  exact ⟨n, hn, hb⟩

theorem eq_ofNat_add {base : Nat} (hb : base ≤ b.toNat) : b = UInt8.ofNat (b.toNat - base + base) := by
  rw [Nat.sub_add_cancel hb, UInt8.ofNat_toNat]

end Bytes

/-- The lead bytes by the bits that they hold, one alternative for each number of followers. -/
inductive Lead : UInt8 → Nat × UInt8 × UInt8 → Prop
  | two {a : Nat} (hlong : 2 ≤ a) (ha : a < 32) : Lead (UInt8.ofNat (a + 192)) (1, 0x80, 0xBF)
  | three {a : Nat} (ha : a < 16) :
      Lead (UInt8.ofNat (a + 224)) (2, if a = 0 then 0xA0 else 0x80, if a = 13 then 0x9F else 0xBF)
  | four {a : Nat} (ha : a < 5) :
      Lead (UInt8.ofNat (a + 240)) (3, if a = 0 then 0x90 else 0x80, if a = 4 then 0x8F else 0xBF)

theorem Lead.of_followers? {lead : UInt8} {range : Nat × UInt8 × UInt8} (h : followers? lead = some range) :
    Lead lead range := by
  have hne {b : UInt8} (hb : ¬lead = b) : lead.toNat ≠ b.toNat := fun he => hb (UInt8.toNat_inj.mp he)
  simp only [followers?, UInt8.le_iff_toNat_le, UInt8.reduceToNat] at h
  -- The ranges of lead bytes one by one: those with a bound of their own on the next byte stand between the others.
  split at h
  · next hb =>
    obtain rfl := Option.some.inj h
    have hbase : 192 ≤ lead.toNat := by omega
    rw [eq_ofNat_add hbase]
    exact .two (by omega) (by omega)
  split at h
  · next hb =>
    subst hb
    obtain rfl := Option.some.inj h
    exact .three (a := 0) (by decide)
  split at h
  · next hb =>
    subst hb
    obtain rfl := Option.some.inj h
    exact .three (a := 13) (by decide)
  split at h
  · next hfirst hsurrogate hb =>
    obtain rfl := Option.some.inj h
    have hzero : lead.toNat ≠ 224 := hne hfirst
    have hthirteen : lead.toNat ≠ 237 := hne hsurrogate
    have hlead := Lead.three (a := lead.toNat - 224) (by omega)
    rwa [if_neg (by omega), if_neg (by omega), ← eq_ofNat_add (by omega)] at hlead
  split at h
  · next hb =>
    subst hb
    obtain rfl := Option.some.inj h
    exact .four (a := 0) (by decide)
  split at h
  · next hb =>
    obtain rfl := Option.some.inj h
    have hlead := Lead.four (a := lead.toNat - 240) (by omega)
    rwa [if_neg (by omega), if_neg (by omega), ← eq_ofNat_add (by omega)] at hlead
  split at h
  · next hb =>
    subst hb
    obtain rfl := Option.some.inj h
    exact .four (a := 4) (by decide)
  · contradiction

section Encoding

variable {a b c d : Nat}

theorem val_ofNat {n : Nat} (h : n.isValidChar) : (Char.ofNat n).val.toNat = n := by
  rw [Char.ofNat, dif_pos h]
  rfl

theorem utf8EncodeChar_one {n : Nat} (hn : n < 128) : String.utf8EncodeChar (Char.ofNat n) = [UInt8.ofNat n] := by
  have hval : (Char.ofNat n).val.toNat = n := val_ofNat (.inl (by omega))
  rw [String.utf8EncodeChar, hval, if_pos (Nat.le_of_lt_succ hn)]

theorem utf8EncodeChar_two (hlong : 2 ≤ a) (ha : a < 32) (hb : b < 64) :
    String.utf8EncodeChar (Char.ofNat (64 * a + b)) = [UInt8.ofNat (a + 192), follower b] := by
  have hval : (Char.ofNat (64 * a + b)).val.toNat = 64 * a + b := val_ofNat (.inl (by omega))
  have hbits : (64 * a + b) / 64 % 32 = a ∧ (64 * a + b) % 64 = b := by omega
  rw [String.utf8EncodeChar, hval, if_neg (by omega), if_pos (by omega), hbits.1, hbits.2]
  rfl

theorem utf8EncodeChar_three (ha : a < 16) (hb : b < 64) (hc : c < 64) (hlong : a = 0 → 32 ≤ b)
    (hvalid : a = 13 → b < 32) :
    String.utf8EncodeChar (Char.ofNat (64 * (64 * a + b) + c)) = [UInt8.ofNat (a + 224), follower b, follower c] := by
  generalize hv : 64 * (64 * a + b) + c = v
  have hcode : v.isValidChar := by rw [Nat.isValidChar]; omega
  have hbits : v / 4096 % 16 = a ∧ v / 64 % 64 = b ∧ v % 64 = c := by omega
  rw [String.utf8EncodeChar, val_ofNat hcode, if_neg (by omega), if_neg (by omega), if_pos (by omega), hbits.1,
    hbits.2.1, hbits.2.2]
  rfl

theorem utf8EncodeChar_four (ha : a < 5) (hb : b < 64) (hc : c < 64) (hd : d < 64) (hlong : a = 0 → 16 ≤ b)
    (hvalid : a = 4 → b < 16) :
    String.utf8EncodeChar (Char.ofNat (64 * (64 * (64 * a + b) + c) + d))
      = [UInt8.ofNat (a + 240), follower b, follower c, follower d] := by
  generalize hv : 64 * (64 * (64 * a + b) + c) + d = v
  have hcode : v.isValidChar := by rw [Nat.isValidChar]; omega
  have hbits : v / 262144 % 8 = a ∧ v / 4096 % 64 = b ∧ v / 64 % 64 = c ∧ v % 64 = d := by omega
  rw [String.utf8EncodeChar, val_ofNat hcode, if_neg (by omega), if_neg (by omega), if_neg (by omega), hbits.1,
    hbits.2.1, hbits.2.2.1, hbits.2.2.2]
  rfl

end Encoding

section Reading

variable {index seen acc missing code count : Nat} {bytes rest : List UInt8}

/-- A byte that is read as a continuation is a follower. -/
theorem continuation_eq_ok (h : continuation index seen acc (missing + 1) bytes = .ok (code, rest)) :
    ∃ n < 64, ∃ more, bytes = follower n :: more ∧
      continuation index (seen + 1) (64 * acc + n) missing more = .ok (code, rest) := by
  cases bytes with
  | nil => contradiction
  | cons b more =>
    rw [continuation] at h
    split at h
    · next hb =>
      obtain ⟨n, hn, rfl⟩ := eq_follower_of_isContinuation hb
      rw [toNat_follower_mod hn] at h
      exact ⟨n, hn, more, rfl, h⟩
    · contradiction

/-- A lead byte of several is read on with a follower in its range. -/
theorem character_eq_ok_of_not_lt {lead : UInt8} {c : Char} (hlead : ¬lead < 0x80)
    (h : character index lead bytes = .ok (c, rest)) :
    ∃ count low high second more code, followers? lead = some (count, low, high) ∧ bytes = second :: more ∧
      (low ≤ second ∧ second ≤ high) ∧ c = Char.ofNat code ∧
      continuation index 2 (64 * leadBits lead count + second.toNat % 64) (count - 1) more = .ok (code, rest) := by
  cases hf : followers? lead with
  | none => simp only [character, if_neg hlead, hf, reduceCtorEq] at h
  | some range =>
    obtain ⟨count, low, high⟩ := range
    cases bytes with
    | nil => simp only [character, if_neg hlead, hf, reduceCtorEq] at h
    | cons second more =>
      simp only [character, if_neg hlead, hf] at h
      split at h
      · next hsecond =>
        cases hread : continuation index 2 (64 * leadBits lead count + second.toNat % 64) (count - 1) more with
        | error fault => simp only [hread, Except.map, reduceCtorEq] at h
        | ok result =>
          simp only [hread, Except.map, Except.ok.injEq, Prod.mk.injEq] at h
          obtain ⟨rfl, rfl⟩ := h
          exact ⟨count, low, high, second, more, result.1, rfl, rfl, hsecond, rfl, hread⟩
      · contradiction

/-- A character is read off its own bytes. -/
theorem character_eq_ok {lead : UInt8} {c : Char} (h : character index lead bytes = .ok (c, rest)) :
    lead :: bytes = String.utf8EncodeChar c ++ rest := by
  by_cases hascii : lead < 0x80
  · simp only [character, if_pos hascii] at h
    obtain ⟨rfl, rfl⟩ := Prod.mk.inj (Except.ok.inj h)
    have hn : lead.toNat < 128 := UInt8.lt_iff_toNat_lt.mp hascii
    rw [utf8EncodeChar_one hn, UInt8.ofNat_toNat]
    rfl
  · obtain ⟨count, low, high, second, more, code, hf, rfl, hsecond, rfl, hread⟩ := character_eq_ok_of_not_lt hascii h
    cases Lead.of_followers? hf with
    | @two a hlong ha =>
      have hbits : ∀ a < 32, leadBits (UInt8.ofNat (a + 192)) 1 = a := by decide
      obtain ⟨b, hb, rfl, -, -⟩ := eq_follower (by decide) (by decide) hsecond
      rw [hbits a ha, toNat_follower_mod hb] at hread
      obtain ⟨rfl, rfl⟩ := Prod.mk.inj (Except.ok.inj hread)
      rw [utf8EncodeChar_two hlong ha hb]
      rfl
    | @three a ha =>
      have hbits : ∀ a < 16, leadBits (UInt8.ofNat (a + 224)) 2 = a := by decide
      -- The range of the second byte rules out encodings that are too long, and surrogates.
      have hlow : ∀ a < 16, let low : UInt8 := if a = 0 then 0xA0 else 0x80
          128 ≤ low.toNat ∧ (a = 0 → 160 ≤ low.toNat) := by decide
      have hhigh : ∀ a < 16, let high : UInt8 := if a = 13 then 0x9F else 0xBF
          high.toNat ≤ 191 ∧ (a = 13 → high.toNat ≤ 159) := by decide
      obtain ⟨hleast, hlong⟩ := hlow a ha
      obtain ⟨hmost, hvalid⟩ := hhigh a ha
      obtain ⟨b, hb, rfl, hl, hh⟩ := eq_follower hleast hmost hsecond
      rw [hbits a ha, toNat_follower_mod hb] at hread
      obtain ⟨c, hc, more, rfl, hthird⟩ := continuation_eq_ok hread
      obtain ⟨rfl, rfl⟩ := Prod.mk.inj (Except.ok.inj hthird)
      rw [utf8EncodeChar_three ha hb hc (by omega) (by omega)]
      rfl
    | @four a ha =>
      have hbits : ∀ a < 5, leadBits (UInt8.ofNat (a + 240)) 3 = a := by decide
      have hlow : ∀ a < 5, let low : UInt8 := if a = 0 then 0x90 else 0x80
          128 ≤ low.toNat ∧ (a = 0 → 144 ≤ low.toNat) := by decide
      have hhigh : ∀ a < 5, let high : UInt8 := if a = 4 then 0x8F else 0xBF
          high.toNat ≤ 191 ∧ (a = 4 → high.toNat ≤ 143) := by decide
      obtain ⟨hleast, hlong⟩ := hlow a ha
      obtain ⟨hmost, hvalid⟩ := hhigh a ha
      obtain ⟨b, hb, rfl, hl, hh⟩ := eq_follower hleast hmost hsecond
      rw [hbits a ha, toNat_follower_mod hb] at hread
      obtain ⟨c, hc, more, rfl, hthird⟩ := continuation_eq_ok hread
      obtain ⟨d, hd, more, rfl, hfourth⟩ := continuation_eq_ok hthird
      obtain ⟨rfl, rfl⟩ := Prod.mk.inj (Except.ok.inj hfourth)
      rw [utf8EncodeChar_four ha hb hc hd (by omega) (by omega)]
      rfl

end Reading

theorem charactersFrom_eq_ok {index fuel : Nat} {acc cs : List Char} {bytes : List UInt8} (hf : bytes.length ≤ fuel)
    (h : charactersFrom index acc fuel bytes = .ok cs) : ∃ text, cs = acc.reverse ++ text ∧ bytes = encode text := by
  -- On the fuel, which is enough while it is no less than the bytes that are left: each character takes one at least.
  induction fuel generalizing index acc bytes with
  | zero =>
    obtain rfl := List.length_eq_zero_iff.mp (Nat.le_zero.mp hf)
    obtain rfl := Except.ok.inj h
    exact ⟨[], (List.append_nil _).symm, rfl⟩
  | succ fuel ih =>
    cases bytes with
    | nil =>
      obtain rfl := Except.ok.inj h
      exact ⟨[], (List.append_nil _).symm, rfl⟩
    | cons lead more =>
      cases hread : character index lead more with
      | error fault => simp only [charactersFrom, hread, reduceCtorEq] at h
      | ok result =>
        obtain ⟨c, rest⟩ := result
        have hbytes : lead :: more = String.utf8EncodeChar c ++ rest := character_eq_ok hread
        have hlength : more.length + 1 = (String.utf8EncodeChar c).length + rest.length := by
          rw [← List.length_append, ← hbytes, List.length_cons]
        have hpos : 0 < (String.utf8EncodeChar c).length := List.length_pos_iff.mpr String.utf8EncodeChar_ne_nil
        have hrest : rest.length ≤ fuel := by
          rw [List.length_cons] at hf
          omega
        simp only [charactersFrom, hread] at h
        obtain ⟨text, rfl, rfl⟩ := ih hrest h
        refine ⟨c :: text, ?_, ?_⟩
        · rw [List.reverse_cons, List.append_assoc, List.singleton_append]
        · rw [hbytes, encode_cons]

/-- What is decoded is an encoding. -/
theorem decode_eq_ok_iff {bytes : List UInt8} {text : List Char} : decode bytes = .ok text ↔ bytes = encode text := by
  constructor
  · intro h
    obtain ⟨text, rfl, rfl⟩ := charactersFrom_eq_ok (Nat.le_refl _) h
    rfl
  · rintro rfl
    exact decode_encode text

/-- Bytes that are no text have a first fault. -/
theorem decode_eq_error {bytes : List UInt8} (h : ∀ text, bytes ≠ encode text) :
    ∃ fault, decode bytes = .error fault := by
  cases hread : decode bytes with
  | error fault => exact ⟨fault, rfl⟩
  | ok text => exact absurd (decode_eq_ok_iff.mp hread) (h text)

end WidgetSync.Text.Utf8
