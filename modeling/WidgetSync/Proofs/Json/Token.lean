import WidgetSync.Json.Reader
import WidgetSync.Json.Writer
import WidgetSync.Proofs.Json.Literal

/-! Numbers and strings: the reader reads exactly the texts that they have, and the writer writes such texts. -/
namespace WidgetSync

namespace Text

/-- Decimal digits denote what the digits of a number denote. -/
theorem digitsFrom?_eq {cs : List Char} (h : ∀ c ∈ cs, c.isDigit = true) (acc : Nat) :
    digitsFrom? acc cs = some (Nat.ofDigitChars 10 cs acc) := by
  induction cs generalizing acc with
  | nil => rfl
  | cons c rest ih =>
    have hc : '0'.toNat ≤ c.toNat ∧ c.toNat ≤ '9'.toNat := Char.isDigit_iff_toNat.mp (h c List.mem_cons_self)
    have hdigit : digit? c = some (c.toNat - '0'.toNat) := if_pos hc
    have hrest := ih (fun d hd => h d (List.mem_cons_of_mem _ hd)) (10 * acc + (c.toNat - '0'.toNat))
    rw [digitsFrom?, hdigit, Nat.ofDigitChars_cons]
    exact hrest

theorem isDigit_of_mem_ofNat {n : Nat} {c : Char} (h : c ∈ ofNat n) : c.isDigit = true :=
  Nat.isDigit_of_mem_toDigits (by decide) (by decide) h

theorem digitsFrom?_ofNat (n : Nat) : digitsFrom? 0 (ofNat n) = some n := by
  rw [digitsFrom?_eq fun c hc => isDigit_of_mem_ofNat hc, ofNat, Nat.ofDigitChars_ten_toDigits]

theorem ofNat_ne_nil (n : Nat) : ofNat n ≠ [] := Nat.toDigits_ne_nil

/-- The first digit is a zero for zero only. -/
theorem ofNat_ne_zero_cons {n : Nat} (h : 0 < n) (rest : List Char) : ofNat n ≠ '0' :: rest := by
  induction n using Nat.strongRecOn generalizing rest with
  | _ n ih =>
    intro he
    rw [ofNat, Nat.toDigits_eq_if (by decide)] at he
    split at he
    · next hlt =>
      have hdigit : ∀ d < 10, 0 < d → Nat.digitChar d ≠ '0' := by decide
      exact hdigit n hlt h (List.cons.inj he).1
    · next hlt =>
      cases hfirst : Nat.toDigits 10 (n / 10) with
      | nil => exact Nat.toDigits_ne_nil hfirst
      | cons d ds =>
        rw [hfirst, List.cons_append] at he
        obtain rfl := (List.cons.inj he).1
        exact ih (n / 10) (by omega) (by omega) ds hfirst

/-- A number is written in digits, after a sign at most. -/
theorem mem_ofInt {i : Int} {c : Char} (h : c ∈ ofInt i) : c = '-' ∨ c.isDigit = true := by
  cases i with
  | ofNat n => exact .inr (isDigit_of_mem_ofNat h)
  | negSucc n =>
    rcases List.mem_cons.mp h with h | h
    · exact .inl h
    · exact .inr (isDigit_of_mem_ofNat h)

end Text

namespace Json

namespace Literal

theorem hasText_ofNat (negative : Bool) (n : Nat) : HasText ⟨negative, Text.ofNat n, [], none⟩
    ((if negative then ['-'] else []) ++ Text.ofNat n) := by
  have hdigits : Digits (Text.ofNat n) := ⟨Text.ofNat_ne_nil n, fun c hc => Text.isDigit_of_mem_ofNat hc⟩
  have hzero (rest : List Char) (h : Text.ofNat n = '0' :: rest) : rest = [] := by
    rcases Nat.eq_zero_or_pos n with rfl | hn
    · rw [Text.ofNat, Nat.toDigits_zero] at h
      exact (List.cons.inj h).2.symm
    · exact absurd h (Text.ofNat_ne_zero_cons hn rest)
  have htext : HasText ⟨negative, Text.ofNat n, [], none⟩
      ((if negative then ['-'] else []) ++ (Text.ofNat n ++ ([] ++ []))) := .mk hdigits hzero .none .none
  rwa [List.append_nil, List.append_nil] at htext

/-- A literal that is exact is no double. -/
theorem toNumber?_of_toInt? {l : Literal} {n : Number} (h : l.toInt? = some n) : l.toNumber? = some n :=
  congrArg (· <|> l.toDouble?) h

theorem toInt?_ofNat (negative : Bool) (n : Nat) :
    toInt? ⟨negative, Text.ofNat n, [], none⟩
      = if !negative then Number.ofInt? n else if n = 0 then none else Number.ofInt? (-n) := by
  simp only [toInt?, Text.digitsFrom?_ofNat]

/-- A whole number of 64 bits has the text that is written for it. -/
theorem hasText_ofInt (i : Int) (h : -0x8000000000000000 ≤ i ∧ i < 0x10000000000000000) :
    ∃ l : Literal, l.HasText (Text.ofInt i) ∧ l.toNumber? = some (.int i h) := by
  have hnumber : Number.ofInt? i = some (.int i h) := dif_pos h
  cases i with
  | ofNat n =>
    refine ⟨_, hasText_ofNat false n, toNumber?_of_toInt? ?_⟩
    rw [toInt?_ofNat]
    exact (if_pos rfl).trans hnumber
  | negSucc n =>
    have hminus : -((n + 1 : Nat) : Int) = .negSucc n := rfl
    refine ⟨_, hasText_ofNat true (n + 1), toNumber?_of_toInt? ?_⟩
    rw [toInt?_ofNat, hminus, hnumber, if_neg (by decide), if_neg n.succ_ne_zero]

end Literal

namespace Reader

variable {text cs rest : List Char} {n : Number} {s : String}

theorem number?_append {l : Literal} (h : l.HasText text) (hn : l.toNumber? = some n) (hr : Literal.Ends rest) :
    number? (text ++ rest) = some (n, rest) := by
  simp only [number?, Literal.read?_append h hr, hn, Option.pure_def, Option.bind_eq_bind, Option.bind_some]

theorem of_number? (h : number? cs = some (n, rest)) :
    ∃ l text, cs = text ++ rest ∧ Literal.HasText l text ∧ l.toNumber? = some n := by
  simp only [number?, Option.pure_def, Option.bind_eq_bind, Option.bind_eq_some_iff, Option.some.injEq] at h
  obtain ⟨⟨l, _⟩, hl, _, hn, heq⟩ := h
  obtain ⟨rfl, rfl⟩ := Prod.mk.inj heq
  obtain ⟨text, rfl, ht⟩ := Literal.of_read? hl
  exact ⟨l, text, rfl, ht, hn⟩

/-- What may stand between the quotes of a string, and the characters that it stands for: a character that needs no
backslash, or one behind a backslash, by its letter, by its unit, or by two units that make a pair. -/
inductive Quotes : List Char → List Char → Prop where
  | nil : Quotes [] []
  | plain {c : Char} {text chars : List Char} (hquote : c ≠ '"') (hbackslash : c ≠ '\\') (hcontrol : ¬c < ' ') :
      Quotes text chars → Quotes (c :: text) (c :: chars)
  | short {letter c : Char} {text chars : List Char} (h : shortEscape? letter = some c) :
      Quotes text chars → Quotes ('\\' :: letter :: text) (c :: chars)
  | unit {a b c d : Char} {unit : Nat} {text chars : List Char} (h : hexUnit? a b c d = some unit)
      (hlow : isLowSurrogate unit = false) (hhigh : isHighSurrogate unit = false) :
      Quotes text chars → Quotes ('\\' :: 'u' :: a :: b :: c :: d :: text) (Char.ofNat unit :: chars)
  | pair {a b c d e f g h : Char} {high low : Nat} {text chars : List Char} (hh : hexUnit? a b c d = some high)
      (hhigh : isHighSurrogate high = true) (hl : hexUnit? e f g h = some low) (hlow : isLowSurrogate low = true) :
      Quotes text chars → Quotes ('\\' :: 'u' :: a :: b :: c :: d :: '\\' :: 'u' :: e :: f :: g :: h :: text)
        (Char.ofNat (0x10000 + (high - 0xD800) * 0x400 + (low - 0xDC00)) :: chars)

theorem not_low_of_high {unit : Nat} (h : isHighSurrogate unit = true) : isLowSurrogate unit = false := by
  simp only [isHighSurrogate, isLowSurrogate, Bool.and_eq_true, Bool.and_eq_false_iff, decide_eq_true_eq,
    decide_eq_false_iff_not] at h ⊢
  omega

/-- Within a string, what is no quote, backslash or control stands for itself. -/
theorem string?_cons {c : Char} (hquote : c ≠ '"') (hbackslash : c ≠ '\\') (hcontrol : ¬c < ' ')
    (acc rest : List Char) : string? acc (c :: rest) = string? (c :: acc) rest := by
  rw [string?.eq_def]
  split
  · contradiction
  · next h => exact absurd (List.cons.inj h).1 hquote
  · next h => exact absurd (List.cons.inj h).1 hbackslash
  · next h => exact absurd (List.cons.inj h).1 hbackslash
  · next h =>
    obtain ⟨rfl, rfl⟩ := List.cons.inj h
    exact if_neg hcontrol

theorem string?_short {letter c : Char} (h : shortEscape? letter = some c) (acc rest : List Char) :
    string? acc ('\\' :: letter :: rest) = string? (c :: acc) rest := by
  have hu : letter ≠ 'u' := by
    rintro rfl
    contradiction
  rw [string?.eq_def]
  split
  · contradiction
  · next heq => exact absurd (List.cons.inj heq).1 (by decide)
  · next heq => exact absurd (List.cons.inj (List.cons.inj heq).2).1 hu
  · next heq =>
    obtain ⟨rfl, rfl⟩ := List.cons.inj (List.cons.inj heq).2
    rw [h]
  · next hshort heq =>
    obtain ⟨rfl, rfl⟩ := List.cons.inj heq
    exact absurd rfl (hshort letter rest rfl)

theorem string?_append {chars : List Char} (h : Quotes text chars) (acc rest : List Char) :
    string? acc (text ++ '"' :: rest) = some (String.ofList (acc.reverse ++ chars), rest) := by
  induction h generalizing acc with
  | nil => rw [List.append_nil]; rfl
  | plain hquote hbackslash hcontrol _ ih =>
    rw [List.cons_append, string?_cons hquote hbackslash hcontrol, ih, List.reverse_cons, List.append_assoc,
      List.singleton_append]
  | short h _ ih =>
    rw [List.cons_append, List.cons_append, string?_short h, ih, List.reverse_cons, List.append_assoc,
      List.singleton_append]
  | unit h hlow hhigh _ ih =>
    simp only [List.cons_append, string?, h, hlow, hhigh, ih, List.reverse_cons, List.append_assoc, List.nil_append,
      Bool.false_eq_true, if_false]
  | pair hh hhigh hl hlow _ ih =>
    simp only [List.cons_append, string?, hh, hhigh, not_low_of_high hhigh, hl, hlow, ih, List.reverse_cons,
      List.append_assoc, List.nil_append, Bool.false_eq_true, if_false, if_true]

theorem of_string? {acc : List Char} (h : string? acc cs = some (s, rest)) :
    ∃ text chars, cs = text ++ '"' :: rest ∧ Quotes text chars ∧ s = String.ofList (acc.reverse ++ chars) := by
  fun_induction string? acc cs with
  | case2 acc =>
    obtain ⟨rfl, rfl⟩ := Prod.mk.inj (Option.some.inj h)
    exact ⟨[], [], rfl, .nil, by rw [List.append_nil]⟩
  | case6 acc a b c d high hh hlow hhigh e f g h' rest' low hl hlow' ih =>
    obtain ⟨text, chars, rfl, hquotes, rfl⟩ := ih h
    exact ⟨_, _, rfl, .pair hh hhigh hl hlow' hquotes, by simp⟩
  | case9 acc a b c d rest' unit hu hlow hhigh ih =>
    obtain ⟨text, chars, rfl, hquotes, rfl⟩ := ih h
    exact ⟨_, _, rfl, .unit hu (Bool.eq_false_iff.mpr hlow) (Bool.eq_false_iff.mpr hhigh) hquotes, by simp⟩
  | case11 acc letter rest' hu c hc ih =>
    obtain ⟨text, chars, rfl, hquotes, rfl⟩ := ih h
    exact ⟨_, _, rfl, .short hc hquotes, by simp⟩
  | case13 acc c rest' hquote hu hbackslash hcontrol ih =>
    obtain ⟨text, chars, rfl, hquotes, rfl⟩ := ih h
    have hne : c ≠ '\\' := by
      -- Something follows, if only the quote at the end.
      have hmore : text ++ '"' :: rest ≠ [] := List.append_ne_nil_of_right_ne_nil text (List.cons_ne_nil '"' rest)
      obtain ⟨d, ds, hd⟩ := List.exists_cons_of_ne_nil hmore
      exact fun hc => hbackslash d ds hc hd
    exact ⟨_, _, rfl, .plain hquote hne hcontrol hquotes, by simp⟩
  | _ => contradiction

end Reader

namespace Writer

open Reader (Quotes hexUnit? isLowSurrogate isHighSurrogate)

/-- Two hexadecimal digits after two zeros spell a control character. -/
theorem hexUnit?_hexPair :
    ∀ n < 32, hexUnit? '0' '0' (Nat.digitChar (n / 16)) (Nat.digitChar (n % 16)) = some n := by decide

/-- An escaped character stands for itself. -/
theorem quotes_escape (c : Char) {text chars : List Char} (h : Quotes text chars) :
    Quotes (escape c ++ text) (c :: chars) := by
  unfold escape
  split
  case h_8 hquote hbackslash _ _ _ _ _ =>
    split
    · next hc =>
      have hlt : c.toNat < 32 := hc
      have hlow : isLowSurrogate c.toNat = false := by simp [isLowSurrogate]; omega
      have hhigh : isHighSurrogate c.toNat = false := by simp [isHighSurrogate]; omega
      have hunit := Quotes.unit (hexUnit?_hexPair c.toNat hlt) hlow hhigh h
      rwa [Char.ofNat_toNat] at hunit
    · next hc => exact .plain hquote hbackslash hc h
  all_goals exact .short rfl h

theorem quotes_flatMap_escape (cs : List Char) : Quotes (cs.flatMap escape) cs := by
  induction cs with
  | nil => exact .nil
  | cons c cs ih => exact quotes_escape c ih

theorem le_of_all {cs : List Char} (h : cs.all (' ' ≤ ·) = true) : ∀ c ∈ cs, ' ' ≤ c :=
  fun c hc => of_decide_eq_true (List.all_eq_true.mp h c hc)

/-- What is escaped holds no control character. -/
theorem le_of_mem_escape {c d : Char} (h : d ∈ escape c) : ' ' ≤ d := by
  have hpair : ∀ n < 32, (hexPair n).all (' ' ≤ ·) = true := by decide
  unfold escape at h
  split at h
  case h_8 =>
    split at h
    · next hc =>
      rcases List.mem_append.mp h with h | h
      · exact le_of_all (by decide) d h
      · exact le_of_all (hpair c.toNat hc) d h
    · next hc =>
      obtain rfl := List.mem_singleton.mp h
      exact Char.not_lt.mp hc
  all_goals exact le_of_all (by decide) d h

theorem le_of_mem_string {s : String} {c : Char} (h : c ∈ string s) : ' ' ≤ c := by
  have hquote : ' ' ≤ '"' := by decide
  rcases List.mem_cons.mp h with rfl | h
  · exact hquote
  · rcases List.mem_append.mp h with h | h
    · obtain ⟨d, _, hd⟩ := List.mem_flatMap.mp h
      exact le_of_mem_escape hd
    · obtain rfl := List.mem_singleton.mp h
      exact hquote

theorem le_of_mem_ofInt {i : Int} {c : Char} (h : c ∈ Text.ofInt i) : ' ' ≤ c := by
  rcases Text.mem_ofInt h with rfl | h
  · decide
  · have hdigit : '0' ≤ c := Char.le_def.mpr (Char.isDigit_iff_toNat.mp h).1
    exact Char.le_trans (by decide) hdigit

end Writer

end Json

end WidgetSync
