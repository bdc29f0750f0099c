import WidgetSync.Proofs.Json.Token
import WidgetSync.Proofs.Text.Trim

/-! Which texts denote 64-bit numbers: digits with a sign or none, in range, and blanks around them. Reading accepts
these texts and no others. -/
namespace WidgetSync.Text

inductive Sign where
  | absent
  | plus
  | minus

def Sign.text : Sign → List Char
  | .absent => []
  | .plus => ['+']
  | .minus => ['-']

def Sign.applyTo (n : Nat) : Sign → Int
  | .absent | .plus => n
  | .minus => -n

/-- Decimal digits after a sign denote a number. -/
structure Spells (sign : Sign) (digits : List Char) (i : Int) : Prop where
  some_digit : digits ≠ []
  digit : ∀ c ∈ digits, c.isDigit = true
  value : i = sign.applyTo (Nat.ofDigitChars 10 digits 0)

/-- A 64-bit number as it may be typed. -/
def Denotes (cs : List Char) (n : Int64) : Prop :=
  ∃ before sign digits after, (∀ c ∈ before, isBlank c = true) ∧ (∀ c ∈ after, isBlank c = true) ∧
    Spells sign digits n.toInt ∧ cs = before ++ ((sign.text ++ digits) ++ after)

variable {cs digits : List Char} {sign : Sign} {i : Int} {n : Int64}

theorem isDigit_of_digit? {c : Char} {d : Nat} (h : digit? c = some d) : c.isDigit = true := by
  rw [digit?] at h
  split at h
  · next hc => exact Char.isDigit_iff_toNat.mpr hc
  · contradiction

theorem isDigit_of_digitsFrom? {acc k : Nat} (h : digitsFrom? acc cs = some k) : ∀ c ∈ cs, c.isDigit = true := by
  induction cs generalizing acc with
  | nil => exact List.forall_mem_nil _
  | cons c rest ih =>
    obtain ⟨d, hd, hrest⟩ := Option.bind_eq_some_iff.mp h
    exact List.forall_mem_cons.mpr ⟨isDigit_of_digit? hd, ih hrest⟩

theorem digits?_eq_some_iff {k : Nat} : digits? cs = some k ↔
    cs ≠ [] ∧ (∀ c ∈ cs, c.isDigit = true) ∧ k = Nat.ofDigitChars 10 cs 0 := by
  rw [digits?]
  split
  · next h =>
    have hnil : cs = [] := List.isEmpty_iff.mp h
    simp [hnil]
  · next h =>
    have hne : cs ≠ [] := fun hnil => h (List.isEmpty_iff.mpr hnil)
    constructor
    · intro hread
      have hdigits := isDigit_of_digitsFrom? hread
      rw [digitsFrom?_eq hdigits] at hread
      exact ⟨hne, hdigits, (Option.some.inj hread).symm⟩
    · rintro ⟨-, hdigits, rfl⟩
      exact digitsFrom?_eq hdigits 0

/-- Neither sign is a digit. -/
theorem isDigit_ne_sign {c : Char} (h : c.isDigit = true) : c ≠ '-' ∧ c ≠ '+' := by
  constructor <;> rintro rfl <;> contradiction

theorem integer?_of_spells (h : Spells sign digits i) : integer? (sign.text ++ digits) = some i := by
  obtain ⟨hne, hdigits, rfl⟩ := h
  have hread : digits? digits = some (Nat.ofDigitChars 10 digits 0) := digits?_eq_some_iff.mpr ⟨hne, hdigits, rfl⟩
  cases sign with
  | plus =>
    show (digits? digits).map Int.ofNat = _
    rw [hread]
    rfl
  | minus =>
    show (digits? digits).map (fun n => -(n : Int)) = _
    rw [hread]
    rfl
  | absent =>
    -- Digits do not start with a sign.
    obtain ⟨c, rest, rfl⟩ := List.exists_cons_of_ne_nil hne
    obtain ⟨hminus, hplus⟩ := isDigit_ne_sign (hdigits c List.mem_cons_self)
    have hnatural : natural? (c :: rest) = digits? (c :: rest) := by
      rw [natural?]
      intro _ he
      exact hplus (List.cons.inj he).1
    show integer? (c :: rest) = _
    rw [integer?, hnatural, hread]
    · rfl
    · intro _ he
      exact hminus (List.cons.inj he).1

theorem spells_of_integer? (h : integer? cs = some i) :
    ∃ sign digits, Spells sign digits i ∧ cs = sign.text ++ digits := by
  have hspells {digits : List Char} {k : Nat} (sign : Sign) (hd : digits? digits = some k) :
      Spells sign digits (sign.applyTo k) := by
    obtain ⟨hne, hdigits, rfl⟩ := digits?_eq_some_iff.mp hd
    exact ⟨hne, hdigits, rfl⟩
  -- A minus is looked for first, then a plus, and what starts with neither is all digits.
  rw [integer?.eq_def] at h
  split at h
  · next ds =>
    cases hd : digits? ds with
    | none => rw [hd] at h; contradiction
    | some k =>
      rw [hd] at h
      obtain rfl := Option.some.inj h
      exact ⟨.minus, ds, hspells .minus hd, rfl⟩
  · obtain ⟨k, hk, rfl⟩ := Option.map_eq_some_iff.mp h
    rw [natural?.eq_def] at hk
    split at hk
    · next ds _ => exact ⟨.plus, ds, hspells .plus hk, rfl⟩
    · exact ⟨.absent, cs, hspells .absent hk, rfl⟩

theorem int64?_eq_some_iff :
    int64? cs = some n ↔ ∃ sign digits, Spells sign digits n.toInt ∧ cs = sign.text ++ digits := by
  have hrange : -0x8000000000000000 ≤ n.toInt ∧ n.toInt < 0x8000000000000000 := ⟨n.le_toInt, n.toInt_lt⟩
  rw [int64?]
  constructor
  · intro h
    obtain ⟨i, hi, rfl⟩ := Option.map_eq_some_iff.mp h
    obtain ⟨hread, hin⟩ := Option.filter_eq_some_iff.mp hi
    obtain ⟨hlow, hhigh⟩ := of_decide_eq_true hin
    have hvalue : (Int64.ofInt i).toInt = i := Int64.toInt_ofInt_of_le hlow hhigh
    rw [hvalue]
    exact spells_of_integer? hread
  · rintro ⟨sign, digits, hs, rfl⟩
    rw [integer?_of_spells hs, Option.filter_some, if_pos (decide_eq_true hrange), Option.map_some, Int64.ofInt_toInt]

theorem isBlank_of_isDigit {c : Char} (h : c.isDigit = true) : isBlank c = false := by
  have hrange : 48 ≤ c.toNat ∧ c.toNat ≤ 57 := Char.isDigit_iff_toNat.mp h
  rw [isBlank, List.any_eq_false]
  intro r hr
  have hapart : ∀ r ∈ blankRanges, r.2 < 48 ∨ 57 < r.1 := by decide
  have hside := hapart r hr
  simp only [Bool.and_eq_true, decide_eq_true_eq]
  omega

theorem Spells.ends (h : Spells sign digits i) : sign.text ++ digits ≠ [] ∧
    (∀ c ∈ (sign.text ++ digits).head?, isBlank c = false) ∧
    ∀ c ∈ (sign.text ++ digits).getLast?, isBlank c = false := by
  have hblank : ∀ c ∈ sign.text ++ digits, isBlank c = false := by
    intro c hc
    rcases List.mem_append.mp hc with hc | hc
    · cases sign with
      | absent => contradiction
      | plus => rw [List.mem_singleton.mp hc]; decide
      | minus => rw [List.mem_singleton.mp hc]; decide
    · exact isBlank_of_isDigit (h.digit c hc)
  exact ⟨List.append_ne_nil_of_right_ne_nil _ h.some_digit, fun c hc => hblank c (List.mem_of_mem_head? hc),
    fun c hc => hblank c (List.mem_of_getLast? hc)⟩

/-- What is read of a text is the number that it denotes. -/
theorem int64?_trim_eq_some_iff : int64? (trim cs) = some n ↔ Denotes cs n := by
  rw [int64?_eq_some_iff]
  constructor
  · rintro ⟨sign, digits, hs, htrim⟩
    obtain ⟨before, after, hb, ha, hcs⟩ := trim_split cs
    exact ⟨before, sign, digits, after, hb, ha, hs, htrim ▸ hcs⟩
  · rintro ⟨before, sign, digits, after, hb, ha, hs, rfl⟩
    obtain ⟨hne, hfirst, hlast⟩ := hs.ends
    exact ⟨sign, digits, hs, trim_append hb ha hne hfirst hlast⟩

theorem int64?_trim_eq_none_iff : int64? (trim cs) = none ↔ ∀ n, ¬Denotes cs n := by
  simp only [Option.eq_none_iff_forall_ne_some, ne_eq, int64?_trim_eq_some_iff]

/-- The decimal text of a number denotes the number. -/
theorem spells_ofInt (i : Int) : ∃ sign digits, Spells sign digits i ∧ ofInt i = sign.text ++ digits := by
  have hspells (sign : Sign) (k : Nat) : Spells sign (ofNat k) (sign.applyTo k) :=
    ⟨ofNat_ne_nil k, fun c hc => isDigit_of_mem_ofNat hc, by rw [ofNat, Nat.ofDigitChars_ten_toDigits]⟩
  cases i with
  | ofNat k => exact ⟨.absent, ofNat k, hspells .absent k, rfl⟩
  | negSucc k => exact ⟨.minus, ofNat (k + 1), hspells .minus (k + 1), rfl⟩

theorem denotes_ofInt {before after : List Char} (hb : ∀ c ∈ before, isBlank c = true)
    (ha : ∀ c ∈ after, isBlank c = true) (n : Int64) : Denotes (before ++ (ofInt n.toInt ++ after)) n := by
  obtain ⟨sign, digits, hs, htext⟩ := spells_ofInt n.toInt
  exact ⟨before, sign, digits, after, hb, ha, hs, by rw [htext]⟩

end WidgetSync.Text
