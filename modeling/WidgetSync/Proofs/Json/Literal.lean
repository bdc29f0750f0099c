import WidgetSync.Json.Literal
import Mathlib.Data.List.TakeWhile

/-! The texts of number literals. The reader takes as much as belongs to a literal, so that it reads each of its texts
if what follows does not make it longer, and it reads nothing else. -/
namespace WidgetSync.Json.Literal

/-- At least one digit, and nothing else. -/
def Digits (cs : List Char) : Prop := cs ≠ [] ∧ ∀ c ∈ cs, isDigit c = true

/-- The texts of a fraction, which may be left out. -/
inductive HasFraction : List Char → List Char → Prop where
  | none : HasFraction [] []
  | digits {fraction : List Char} (h : Digits fraction) : HasFraction fraction ('.' :: fraction)

/-- The texts of an exponent, which may be left out, as may its sign. -/
inductive HasExponent : Option (Bool × List Char) → List Char → Prop where
  | none : HasExponent none []
  | unsigned {e : Char} {digits : List Char} (he : e = 'e' ∨ e = 'E') (h : Digits digits) :
      HasExponent (some (false, digits)) (e :: digits)
  | positive {e : Char} {digits : List Char} (he : e = 'e' ∨ e = 'E') (h : Digits digits) :
      HasExponent (some (false, digits)) (e :: '+' :: digits)
  | negative {e : Char} {digits : List Char} (he : e = 'e' ∨ e = 'E') (h : Digits digits) :
      HasExponent (some (true, digits)) (e :: '-' :: digits)

/-- The texts of a literal. Its whole part starts with a zero only if it is one. -/
inductive HasText : Literal → List Char → Prop where
  | mk {negative : Bool} {whole fraction : List Char} {exponent : Option (Bool × List Char)} {point power : List Char}
      (hw : Digits whole) (hzero : ∀ rest, whole = '0' :: rest → rest = []) (hf : HasFraction fraction point)
      (he : HasExponent exponent power) :
      HasText ⟨negative, whole, fraction, exponent⟩
        ((if negative then ['-'] else []) ++ (whole ++ (point ++ power)))

/-- No digit comes first. -/
def NoDigit (rest : List Char) : Prop := ∀ c ∈ rest.head?, isDigit c = false

theorem noDigit_cons {c : Char} (h : isDigit c = false) (rest : List Char) : NoDigit (c :: rest) := by
  simpa [NoDigit] using h

/-- What follows a literal without making it longer. -/
def Ends (rest : List Char) : Prop :=
  ∀ c ∈ rest.head?, isDigit c = false ∧ c ≠ '.' ∧ c ≠ 'e' ∧ c ≠ 'E'

theorem ends_nil : Ends [] := by simp [Ends]

theorem ends_cons {c : Char} (h : isDigit c = false ∧ c ≠ '.' ∧ c ≠ 'e' ∧ c ≠ 'E') (rest : List Char) :
    Ends (c :: rest) := by
  simpa [Ends] using h

theorem Ends.noDigit {rest : List Char} (h : Ends rest) : NoDigit rest := fun c hc => (h c hc).1

variable {cs digits rest whole fraction point power text : List Char} {exponent : Option (Bool × List Char)}
  {l : Literal} {negative : Bool}

/-! ### Texts are read -/

theorem spanDigits_append (hd : ∀ c ∈ digits, isDigit c = true) (hr : NoDigit rest) :
    spanDigits (digits ++ rest) = (digits, rest) := by
  have hrest : rest.takeWhile isDigit = [] ∧ rest.dropWhile isDigit = rest := by
    cases rest with
    | nil => exact ⟨rfl, rfl⟩
    | cons c rest =>
      have hc : isDigit c = false := hr c rfl
      simp [hc]
  rw [spanDigits, List.takeWhile_append_of_pos hd, List.dropWhile_append_of_pos hd, hrest.1, hrest.2,
    List.append_nil]

theorem whole?_append (hw : Digits whole) (hzero : ∀ rest, whole = '0' :: rest → rest = []) (hr : NoDigit rest) :
    whole? (whole ++ rest) = some (whole, rest) := by
  rw [whole?, spanDigits_append hw.2 hr]
  split
  · next h => exact absurd (congrArg Prod.fst h) hw.1
  · next h => exact absurd (hzero _ (congrArg Prod.fst h)) (List.cons_ne_nil _ _)
  · rfl

theorem fraction?_append (hf : HasFraction fraction point) (hr : NoDigit rest) (hpoint : rest.head? ≠ some '.') :
    fraction? (point ++ rest) = some (fraction, rest) := by
  cases hf with
  | none =>
    rw [List.nil_append]
    unfold fraction?
    split
    · exact absurd rfl hpoint
    · rfl
  | digits h =>
    rw [List.cons_append, fraction?, spanDigits_append h.2 hr]
    split
    · next heq => exact absurd (congrArg Prod.fst heq) h.1
    · rfl

theorem exponentDigits?_append (h : Digits digits) (hr : NoDigit rest) (negative : Bool) :
    exponentDigits? negative (digits ++ rest) = some (some (negative, digits), rest) := by
  rw [exponentDigits?, spanDigits_append h.2 hr]
  split
  · next heq => exact absurd (congrArg Prod.fst heq) h.1
  · next heq =>
    obtain ⟨rfl, rfl⟩ := Prod.mk.inj heq
    rfl

theorem signedExponent?_of_digits (h : Digits digits) (rest : List Char) :
    signedExponent? (digits ++ rest) = exponentDigits? false (digits ++ rest) := by
  obtain ⟨c, cs, rfl⟩ := List.exists_cons_of_ne_nil h.1
  have hc : isDigit c = true := h.2 c List.mem_cons_self
  rw [List.cons_append]
  unfold signedExponent?
  split
  · next heq => obtain rfl := (List.cons.inj heq).1; contradiction
  · next heq => obtain rfl := (List.cons.inj heq).1; contradiction
  · rfl

theorem exponent?_cons {e : Char} (he : e = 'e' ∨ e = 'E') (cs : List Char) :
    exponent? (e :: cs) = signedExponent? cs := by
  rcases he with rfl | rfl <;> rfl

theorem exponent?_append (he : HasExponent exponent power) (hr : Ends rest) :
    exponent? (power ++ rest) = some (exponent, rest) := by
  cases he with
  | none =>
    rw [List.nil_append]
    unfold exponent?
    split
    · exact absurd rfl (hr _ rfl).2.2.1
    · exact absurd rfl (hr _ rfl).2.2.2
    · rfl
  | unsigned he h =>
    rw [List.cons_append, exponent?_cons he, signedExponent?_of_digits h, exponentDigits?_append h hr.noDigit]
  | positive he h => exact (exponent?_cons he _).trans (exponentDigits?_append h hr.noDigit false)
  | negative he h => exact (exponent?_cons he _).trans (exponentDigits?_append h hr.noDigit true)

theorem HasExponent.after_fraction (he : HasExponent exponent power) (hr : Ends rest) :
    NoDigit (power ++ rest) ∧ (power ++ rest).head? ≠ some '.' := by
  have hletter {e : Char} (he : e = 'e' ∨ e = 'E') (cs : List Char) :
      NoDigit (e :: cs) ∧ (e :: cs).head? ≠ some '.' := by
    rcases he with rfl | rfl <;> exact ⟨noDigit_cons (by decide) cs, by simp⟩
  cases he with
  | none => exact ⟨hr.noDigit, fun h => (hr '.' h).2.1 rfl⟩
  | unsigned he => exact hletter he _
  | positive he => exact hletter he _
  | negative he => exact hletter he _

theorem HasFraction.after_whole (hf : HasFraction fraction point) (hr : NoDigit rest) : NoDigit (point ++ rest) := by
  cases hf with
  | none => exact hr
  | digits => exact noDigit_cons (by decide) _

theorem read?_append (h : HasText l text) (hr : Ends rest) : read? (text ++ rest) = some (l, rest) := by
  cases h with
  | @mk negative whole fraction exponent point power hw hzero hf he =>
    obtain ⟨hdigit, hpoint⟩ := he.after_fraction hr
    have hwhole := whole?_append hw hzero (hf.after_whole hdigit)
    have hfraction := fraction?_append hf hdigit hpoint
    have hunsigned (negative : Bool) : unsigned? negative (whole ++ (point ++ (power ++ rest))) =
        some (⟨negative, whole, fraction, exponent⟩, rest) := by
      simp only [unsigned?, hwhole, hfraction, exponent?_append he hr, Option.pure_def, Option.bind_eq_bind,
        Option.bind_some]
    rw [List.append_assoc, List.append_assoc, List.append_assoc]
    cases negative with
    | true => exact hunsigned true
    | false =>
      -- A literal without a sign starts with a digit.
      obtain ⟨c, cs, rfl⟩ := List.exists_cons_of_ne_nil hw.1
      have hc : isDigit c = true := hw.2 c List.mem_cons_self
      rw [← hunsigned false]
      show read? (c :: (cs ++ _)) = unsigned? false (c :: (cs ++ _))
      unfold read?
      split
      · next heq => obtain rfl := (List.cons.inj heq).1; contradiction
      · rfl

/-! ### What is read is a text -/

theorem of_spanDigits (h : spanDigits cs = (digits, rest)) : cs = digits ++ rest ∧ ∀ c ∈ digits, isDigit c = true := by
  obtain ⟨rfl, rfl⟩ := Prod.mk.inj h
  exact ⟨List.takeWhile_append_dropWhile.symm, fun c hc => List.mem_takeWhile_imp hc⟩

theorem of_whole? (h : whole? cs = some (whole, rest)) :
    cs = whole ++ rest ∧ Digits whole ∧ ∀ more, whole = '0' :: more → more = [] := by
  unfold whole? at h
  split at h
  · contradiction
  · contradiction
  · next hempty hzeros =>
    have hspan := Option.some.inj h
    obtain ⟨hcs, hd⟩ := of_spanDigits hspan
    refine ⟨hcs, ⟨?_, hd⟩, ?_⟩
    · rintro rfl
      exact hempty rest hspan
    · rintro (_ | ⟨c, more⟩) rfl
      · rfl
      · exact absurd hspan (hzeros c more rest)

theorem of_fraction? (h : fraction? cs = some (fraction, rest)) :
    ∃ point, cs = point ++ rest ∧ HasFraction fraction point := by
  unfold fraction? at h
  split at h
  · split at h
    · contradiction
    · next hempty =>
      have hspan := Option.some.inj h
      obtain ⟨hcs, hd⟩ := of_spanDigits hspan
      refine ⟨_, congrArg ('.' :: ·) hcs, .digits ⟨?_, hd⟩⟩
      rintro rfl
      exact hempty rest hspan
  · obtain ⟨rfl, rfl⟩ := Prod.mk.inj (Option.some.inj h)
    exact ⟨[], rfl, .none⟩

theorem of_exponentDigits? (h : exponentDigits? negative cs = some (exponent, rest)) :
    ∃ digits, exponent = some (negative, digits) ∧ cs = digits ++ rest ∧ Digits digits := by
  unfold exponentDigits? at h
  split at h
  · contradiction
  · next digits after hempty hspan =>
    obtain ⟨rfl, rfl⟩ := Prod.mk.inj (Option.some.inj h)
    obtain ⟨hcs, hd⟩ := of_spanDigits hspan
    refine ⟨digits, rfl, hcs, ?_, hd⟩
    rintro rfl
    exact hempty rfl

theorem of_signedExponent? {e : Char} (he : e = 'e' ∨ e = 'E') (h : signedExponent? cs = some (exponent, rest)) :
    ∃ power, e :: cs = power ++ rest ∧ HasExponent exponent power := by
  unfold signedExponent? at h
  split at h
  all_goals obtain ⟨digits, rfl, rfl, hd⟩ := of_exponentDigits? h
  · exact ⟨_, rfl, .negative he hd⟩
  · exact ⟨_, rfl, .positive he hd⟩
  · exact ⟨_, rfl, .unsigned he hd⟩

theorem of_exponent? (h : exponent? cs = some (exponent, rest)) :
    ∃ power, cs = power ++ rest ∧ HasExponent exponent power := by
  unfold exponent? at h
  split at h
  · exact of_signedExponent? (.inl rfl) h
  · exact of_signedExponent? (.inr rfl) h
  · obtain ⟨rfl, rfl⟩ := Prod.mk.inj (Option.some.inj h)
    exact ⟨[], rfl, .none⟩

theorem of_unsigned? (h : unsigned? negative cs = some (l, rest)) :
    ∃ text, cs = text ++ rest ∧ HasText l ((if negative then ['-'] else []) ++ text) := by
  simp only [unsigned?, Option.pure_def, Option.bind_eq_bind, Option.bind_eq_some_iff, Option.some.injEq] at h
  obtain ⟨⟨whole, afterWhole⟩, hwhole, ⟨fraction, afterFraction⟩, hfraction, ⟨exponent, _⟩, hexponent, heq⟩ := h
  obtain ⟨rfl, rfl⟩ := Prod.mk.inj heq
  obtain ⟨rfl, hw, hzero⟩ := of_whole? hwhole
  obtain ⟨point, rfl, hf⟩ := of_fraction? hfraction
  obtain ⟨power, rfl, he⟩ := of_exponent? hexponent
  exact ⟨whole ++ (point ++ power), by simp, .mk hw hzero hf he⟩

theorem of_read? (h : read? cs = some (l, rest)) : ∃ text, cs = text ++ rest ∧ HasText l text := by
  unfold read? at h
  split at h
  · obtain ⟨text, rfl, ht⟩ := of_unsigned? h
    exact ⟨'-' :: text, rfl, ht⟩
  · exact of_unsigned? h

/-- A literal starts with a sign or a digit. -/
theorem HasText.head (h : HasText l text) : ∃ c rest, text = c :: rest ∧ (c = '-' ∨ isDigit c = true) := by
  cases h with
  | @mk negative whole _ _ point power hw =>
    cases negative with
    | true => exact ⟨'-', _, rfl, .inl rfl⟩
    | false =>
      obtain ⟨c, cs, rfl⟩ := List.exists_cons_of_ne_nil hw.1
      exact ⟨c, cs ++ (point ++ power), rfl, .inr (hw.2 c List.mem_cons_self)⟩

end WidgetSync.Json.Literal
