import WidgetSync.Text.Utf8

/-! Text survives its encoding: the bytes of characters are read as these characters. -/
namespace WidgetSync.Text.Utf8

/-- The bytes of characters. -/
def encode (cs : List Char) : List UInt8 := cs.flatMap String.utf8EncodeChar

/-- A byte after the first one of a character holds six bits of the code point. -/
def follower (bits : Nat) : UInt8 := UInt8.ofNat (bits + 128)

theorem toNat_follower {n : Nat} (h : n < 64) : (follower n).toNat = n + 128 := by
  rw [follower, UInt8.toNat_ofNat']
  omega

/-- The bounds of a follower, on its bits. -/
theorem follower_mem {n : Nat} (h : n < 64) {low high : UInt8} (hl : low.toNat ≤ n + 128)
    (hh : n + 128 ≤ high.toNat) : low ≤ follower n ∧ follower n ≤ high := by
  rw [UInt8.le_iff_toNat_le, UInt8.le_iff_toNat_le, toNat_follower h]
  exact ⟨hl, hh⟩

theorem toNat_follower_mod {n : Nat} (h : n < 64) : (follower n).toNat % 64 = n := by
  rw [toNat_follower h]
  omega

section Bounds

variable {a b bits : Nat}

/-- After the first lead byte of a length, smaller followers would make an overlong form. -/
theorem low_le {first : UInt8} (hfirst : first.toNat = bits + 128) (hlong : a = 0 → bits ≤ b) :
    (if a = 0 then first else 0x80).toNat ≤ b + 128 := by
  split
  · next h => exact hfirst ▸ Nat.add_le_add_right (hlong h) 128
  · exact Nat.le_add_left 128 b

/-- After one lead byte, larger followers would make no code point. -/
theorem le_high {top : Nat} {last : UInt8} (hlast : last.toNat + 1 = bits + 128) (hb : b < 64)
    (hvalid : a = top → b < bits) : b + 128 ≤ (if a = top then last else 0xBF).toNat := by
  split
  · next h =>
    have hbits : b < bits := hvalid h
    omega
  · exact Nat.add_le_add_right (Nat.le_of_lt_succ hb) 128

end Bounds

section Character

variable (index : Nat) (rest : List UInt8)

theorem continuation_follower (seen acc missing : Nat) {n : Nat} (h : n < 64) :
    continuation index seen acc (missing + 1) (follower n :: rest)
      = continuation index (seen + 1) (64 * acc + n) missing rest := by
  have hrange : 0x80 ≤ follower n ∧ follower n ≤ 0xBF := by
    apply follower_mem h
    · exact Nat.le_add_left 128 n
    · have hmax : n + 128 ≤ 191 := by omega
      exact hmax
  have hcontinues : isContinuation (follower n) = true := by
    rw [isContinuation, decide_eq_true hrange.1, decide_eq_true hrange.2]
    rfl
  rw [continuation, if_pos hcontinues, toNat_follower_mod h]

/-- A lead byte and a second one in its range are read on from the bits of both. -/
theorem character_lead {lead low high : UInt8} {count bits n : Nat} (hlead : ¬lead < 0x80)
    (hf : followers? lead = some (count, low, high)) (hbits : leadBits lead count = bits) (hn : n < 64)
    (hl : low.toNat ≤ n + 128) (hh : n + 128 ≤ high.toNat) :
    character index lead (follower n :: rest)
      = (continuation index 2 (64 * bits + n) (count - 1) rest).map fun (code, rest) => (Char.ofNat code, rest) := by
  have hrange : low ≤ follower n ∧ follower n ≤ high := follower_mem hn hl hh
  simp only [character, if_neg hlead, hf, if_pos hrange, hbits, toNat_follower_mod hn]

theorem character_two {a b : Nat} (ha : a < 32) (hb : b < 64) (hlong : 2 ≤ a) :
    character index (UInt8.ofNat (a + 192)) (follower b :: rest) = .ok (Char.ofNat (64 * a + b), rest) := by
  have hlead : ∀ a < 32, ¬UInt8.ofNat (a + 192) < 0x80 := by decide
  have hfollowers : ∀ a < 32, 2 ≤ a → followers? (UInt8.ofNat (a + 192)) = some (1, 0x80, 0xBF) := by decide
  have hbits : ∀ a < 32, leadBits (UInt8.ofNat (a + 192)) 1 = a := by decide
  have hlow : (0x80 : UInt8).toNat ≤ b + 128 := Nat.le_add_left 128 b
  have hhigh : b + 128 ≤ (0xBF : UInt8).toNat := Nat.add_le_add_right (Nat.le_of_lt_succ hb) 128
  rw [character_lead index rest (hlead a ha) (hfollowers a ha hlong) (hbits a ha) hb hlow hhigh]
  rfl

theorem character_three {a b c : Nat} (ha : a < 16) (hb : b < 64) (hc : c < 64) (hlong : a = 0 → 32 ≤ b)
    (hvalid : a = 13 → b < 32) :
    character index (UInt8.ofNat (a + 224)) (follower b :: follower c :: rest)
      = .ok (Char.ofNat (64 * (64 * a + b) + c), rest) := by
  have hlead : ∀ a < 16, ¬UInt8.ofNat (a + 224) < 0x80 := by decide
  have hfollowers : ∀ a < 16, followers? (UInt8.ofNat (a + 224))
      = some (2, if a = 0 then 0xA0 else 0x80, if a = 13 then 0x9F else 0xBF) := by decide
  have hbits : ∀ a < 16, leadBits (UInt8.ofNat (a + 224)) 2 = a := by decide
  have hlow : (if a = 0 then 0xA0 else 0x80 : UInt8).toNat ≤ b + 128 := low_le rfl hlong
  have hhigh : b + 128 ≤ (if a = 13 then 0x9F else 0xBF : UInt8).toNat := le_high rfl hb hvalid
  rw [character_lead index _ (hlead a ha) (hfollowers a ha) (hbits a ha) hb hlow hhigh,
    continuation_follower index rest _ _ _ hc]
  rfl

theorem character_four {a b c d : Nat} (ha : a < 5) (hb : b < 64) (hc : c < 64) (hd : d < 64)
    (hlong : a = 0 → 16 ≤ b) (hvalid : a = 4 → b < 16) :
    character index (UInt8.ofNat (a + 240)) (follower b :: follower c :: follower d :: rest)
      = .ok (Char.ofNat (64 * (64 * (64 * a + b) + c) + d), rest) := by
  have hlead : ∀ a < 5, ¬UInt8.ofNat (a + 240) < 0x80 := by decide
  have hfollowers : ∀ a < 5, followers? (UInt8.ofNat (a + 240))
      = some (3, if a = 0 then 0x90 else 0x80, if a = 4 then 0x8F else 0xBF) := by decide
  have hbits : ∀ a < 5, leadBits (UInt8.ofNat (a + 240)) 3 = a := by decide
  have hlow : (if a = 0 then 0x90 else 0x80 : UInt8).toNat ≤ b + 128 := low_le rfl hlong
  have hhigh : b + 128 ≤ (if a = 4 then 0x8F else 0xBF : UInt8).toNat := le_high rfl hb hvalid
  rw [character_lead index _ (hlead a ha) (hfollowers a ha) (hbits a ha) hb hlow hhigh,
    continuation_follower index _ _ _ _ hc, continuation_follower index rest _ _ _ hd]
  rfl

/-- The bytes of a character are read as the character. -/
theorem character_encode (c : Char) : ∃ lead more,
    String.utf8EncodeChar c = lead :: more ∧ character index lead (more ++ rest) = .ok (c, rest) := by
  have hcode : Char.ofNat c.val.toNat = c := Char.ofNat_toNat c
  have hvalid : c.val.toNat < 0xD800 ∨ 0xDFFF < c.val.toNat ∧ c.val.toNat < 0x110000 := c.valid
  rw [String.utf8EncodeChar]
  generalize c.val.toNat = v at hcode hvalid ⊢
  split
  · next h =>
    have hbyte : (UInt8.ofNat v).toNat = v := by rw [UInt8.toNat_ofNat']; omega
    have hascii : UInt8.ofNat v < 0x80 := by
      rw [UInt8.lt_iff_toNat_lt, hbyte]
      exact Nat.lt_succ_of_le h
    refine ⟨_, _, rfl, ?_⟩
    simp only [character, if_pos hascii, hbyte, hcode, List.nil_append]
  split
  · next _ h =>
    have hbits : 64 * (v / 64 % 32) + v % 64 = v := by omega
    refine ⟨_, _, rfl, ?_⟩
    have hread := character_two index rest (a := v / 64 % 32) (b := v % 64) (by omega) (by omega) (by omega)
    rwa [hbits, hcode] at hread
  split
  · next _ _ h =>
    have hbits : 64 * (64 * (v / 4096 % 16) + v / 64 % 64) + v % 64 = v := by omega
    refine ⟨_, _, rfl, ?_⟩
    -- Below U+0800 two bytes are enough, and the surrogates would follow the lead byte of U+D000.
    have hread := character_three index rest (a := v / 4096 % 16) (b := v / 64 % 64) (c := v % 64) (by omega)
      (by omega) (by omega) (by omega) (by omega)
    rwa [hbits, hcode] at hread
  · have hbits : 64 * (64 * (64 * (v / 262144 % 8) + v / 4096 % 64) + v / 64 % 64) + v % 64 = v := by omega
    refine ⟨_, _, rfl, ?_⟩
    -- Below U+10000 three bytes are enough, and no code point lies above U+10FFFF.
    have hread := character_four index rest (a := v / 262144 % 8) (b := v / 4096 % 64) (c := v / 64 % 64) (d := v % 64)
      (by omega) (by omega) (by omega) (by omega) (by omega) (by omega)
    rwa [hbits, hcode] at hread

end Character

theorem charactersFrom_encode (cs : List Char) (index : Nat) (acc : List Char) {fuel : Nat}
    (hf : (encode cs).length ≤ fuel) : charactersFrom index acc fuel (encode cs) = .ok (acc.reverse ++ cs) := by
  induction cs generalizing index acc fuel with
  | nil => cases fuel <;> simp [encode, charactersFrom]
  | cons c cs ih =>
    obtain ⟨lead, more, hencode, hread⟩ := character_encode index (encode cs) c
    have hbytes : encode (c :: cs) = lead :: (more ++ encode cs) := by
      rw [encode, List.flatMap_cons, hencode]
      rfl
    rw [hbytes] at hf ⊢
    cases fuel with
    | zero => contradiction
    | succ fuel =>
      have hrest : (encode cs).length ≤ fuel := by
        rw [List.length_cons, List.length_append] at hf
        omega
      simp only [charactersFrom, hread, ih _ _ hrest, List.reverse_cons, List.append_assoc, List.singleton_append]

/-- What is encoded is decoded. -/
theorem decode_encode (cs : List Char) : decode (encode cs) = .ok cs :=
  charactersFrom_encode cs 0 [] (Nat.le_refl _)

theorem toList_loop (bytes : ByteArray) (i : Nat) (acc : List UInt8) :
    ByteArray.toList.loop bytes i acc = acc.reverse ++ bytes.data.toList.drop i := by
  fun_induction ByteArray.toList.loop bytes i acc with
  | case1 i acc h ih =>
    have hi : i < bytes.data.toList.length := h
    rw [ih, List.drop_eq_getElem_cons hi]
    simp [ByteArray.get!, h]
  | case2 i acc h =>
    have hi : bytes.data.toList.length ≤ i := Nat.le_of_not_lt h
    rw [List.drop_eq_nil_of_le hi, List.append_nil]

/-- The bytes of a string are those of its characters. -/
theorem toList_toUTF8 (text : String) : text.toUTF8.toList = encode text.toList := by
  have hbytes : text.toUTF8 = (encode text.toList).toByteArray := by
    rw [String.toUTF8_eq_toByteArray, ← String.ofList_toList (s := text), String.toByteArray_ofList]
    simp only [String.toList_ofList]
    rfl
  rw [hbytes, ByteArray.toList, toList_loop, List.toList_data_toByteArray]
  rfl

theorem encode_ne_nil {cs : List Char} (h : cs ≠ []) : encode cs ≠ [] := by
  cases cs with
  | nil => contradiction
  | cons c cs => exact List.append_ne_nil_of_left_ne_nil String.utf8EncodeChar_ne_nil (encode cs)

theorem encode_cons (c : Char) (cs : List Char) : encode (c :: cs) = String.utf8EncodeChar c ++ encode cs :=
  List.flatMap_cons

theorem encode_singleton (c : Char) : encode [c] = String.utf8EncodeChar c := List.append_nil _

theorem encode_append (cs ds : List Char) : encode (cs ++ ds) = encode cs ++ encode ds := List.flatMap_append

/-- The bytes of a longer sequence have their highest bit set. -/
theorem high_of_mem_utf8EncodeChar {c : Char} (h : 127 < c.val.toNat) {b : UInt8} (hb : b ∈ String.utf8EncodeChar c) :
    128 ≤ b.toNat := by
  have hhigh : ∀ n, 128 ≤ n → n < 256 → 128 ≤ (UInt8.ofNat n).toNat := by
    intro n hl hh
    rw [UInt8.toNat_ofNat']
    omega
  simp only [String.utf8EncodeChar, if_neg (Nat.not_le.mpr h)] at hb
  split at hb
  · simp only [List.mem_cons, List.not_mem_nil, or_false] at hb
    rcases hb with rfl | rfl <;> exact hhigh _ (by omega) (by omega)
  split at hb
  · simp only [List.mem_cons, List.not_mem_nil, or_false] at hb
    rcases hb with rfl | rfl | rfl <;> exact hhigh _ (by omega) (by omega)
  · simp only [List.mem_cons, List.not_mem_nil, or_false] at hb
    rcases hb with rfl | rfl | rfl | rfl <;> exact hhigh _ (by omega) (by omega)

/-- Only the line feed has its byte. -/
theorem lineFeed_mem_utf8EncodeChar {c : Char} (h : 10 ∈ String.utf8EncodeChar c) : c = '\n' := by
  rcases Nat.lt_or_ge 127 c.val.toNat with hc | hc
  · exact absurd (high_of_mem_utf8EncodeChar hc h) (by decide)
  · have hself : String.utf8EncodeChar c = [UInt8.ofNat c.val.toNat] := if_pos hc
    rw [hself, List.mem_singleton] at h
    have hcode : c.val.toNat % 256 = 10 := by rw [← UInt8.toNat_ofNat', ← h]; rfl
    have hfeed : c.val.toNat = 10 := by omega
    rw [← Char.ofNat_toNat c, Char.toNat, hfeed]

end WidgetSync.Text.Utf8
