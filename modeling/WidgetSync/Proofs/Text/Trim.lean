import WidgetSync.Text.Blank
import Mathlib.Data.List.TakeWhile

/-! Blanks at the ends of a text: they can be told from the rest, and any number of them is dropped. -/
namespace WidgetSync.Text

variable {before cs after : List Char}

theorem trimStart_append (hb : ∀ c ∈ before, isBlank c = true) (hc : ∀ c ∈ cs.head?, isBlank c = false)
    (hne : cs ≠ []) (rest : List Char) : trimStart (before ++ (cs ++ rest)) = cs ++ rest := by
  cases cs with
  | nil => exact absurd rfl hne
  | cons c cs =>
    have hfirst : ¬isBlank c = true := Bool.eq_false_iff.mp (hc c rfl)
    rw [trimStart, List.dropWhile_append_of_pos hb, List.cons_append, List.dropWhile_cons_of_neg hfirst]

/-- Blanks around a text that has none at its ends are dropped. -/
theorem trim_append (hb : ∀ c ∈ before, isBlank c = true) (ha : ∀ c ∈ after, isBlank c = true) (hne : cs ≠ [])
    (hfirst : ∀ c ∈ cs.head?, isBlank c = false) (hlast : ∀ c ∈ cs.getLast?, isBlank c = false) :
    trim (before ++ (cs ++ after)) = cs := by
  have hblanks : ∀ c ∈ after.reverse, isBlank c = true := fun c hc => ha c (List.mem_reverse.mp hc)
  have hends : ∀ c ∈ cs.reverse.head?, isBlank c = false := List.head?_reverse ▸ hlast
  have hback := trimStart_append hblanks hends (List.reverse_ne_nil_iff.mpr hne) []
  rw [List.append_nil] at hback
  rw [trim, trimStart_append hb hfirst hne, List.reverse_append, hback, List.reverse_reverse]

/-- What blanks leave at the front. -/
theorem trimStart_split (cs : List Char) :
    ∃ before, (∀ c ∈ before, isBlank c = true) ∧ cs = before ++ trimStart cs :=
  ⟨cs.takeWhile isBlank, fun _ hc => List.mem_takeWhile_imp hc, (List.takeWhile_append_dropWhile).symm⟩

theorem head?_trimStart (cs : List Char) : ∀ c ∈ (trimStart cs).head?, isBlank c = false := by
  intro c hc
  have hnot := List.head?_dropWhile_not isBlank cs
  rw [← trimStart, Option.mem_def.mp hc] at hnot
  simpa using hnot

/-- What blanks leave at the back. -/
theorem trimStart_eq_trim_append (cs : List Char) :
    ∃ after, (∀ c ∈ after, isBlank c = true) ∧ trimStart cs = trim cs ++ after := by
  obtain ⟨after, ha, hback⟩ := trimStart_split (trimStart cs).reverse
  refine ⟨after.reverse, fun c hc => ha c (List.mem_reverse.mp hc), ?_⟩
  rw [trim, ← List.reverse_append, ← hback, List.reverse_reverse]

/-- A text is what is left of it, with blanks around that. -/
theorem trim_split (cs : List Char) : ∃ before after,
    (∀ c ∈ before, isBlank c = true) ∧ (∀ c ∈ after, isBlank c = true) ∧ cs = before ++ (trim cs ++ after) := by
  obtain ⟨before, hb, hcs⟩ := trimStart_split cs
  obtain ⟨after, ha, hrest⟩ := trimStart_eq_trim_append cs
  refine ⟨before, after, hb, ha, ?_⟩
  rw [← hrest]
  exact hcs

/-- What is left of a text has no blank at its ends. -/
theorem trim_ends (cs : List Char) : (∀ c ∈ (trim cs).head?, isBlank c = false) ∧
    ∀ c ∈ (trim cs).getLast?, isBlank c = false := by
  refine ⟨fun c hc => ?_, ?_⟩
  · obtain ⟨after, -, hrest⟩ := trimStart_eq_trim_append cs
    -- The first character that is left is the first that is no blank.
    have hhead : (trimStart cs).head? = (trim cs).head? := by
      rw [hrest]
      cases h : trim cs with
      | nil => rw [h] at hc; contradiction
      | cons d ds => rfl
    exact head?_trimStart cs c (hhead ▸ hc)
  · rw [trim, List.getLast?_reverse]
    exact head?_trimStart _

theorem trim_of_blank (h : ∀ c ∈ cs, isBlank c = true) : trim cs = [] := by
  have hnone : trimStart cs = [] := List.dropWhile_eq_nil_iff.mpr h
  rw [trim, hnone]
  rfl

/-- More blanks at the ends make no difference. -/
theorem trim_padded (hb : ∀ c ∈ before, isBlank c = true) (ha : ∀ c ∈ after, isBlank c = true) (cs : List Char) :
    trim (before ++ (cs ++ after)) = trim cs := by
  obtain ⟨left, right, hl, hr, hcs⟩ := trim_split cs
  obtain ⟨hfirst, hlast⟩ := trim_ends cs
  have hleft : ∀ c ∈ before ++ left, isBlank c = true := List.forall_mem_append.mpr ⟨hb, hl⟩
  have hright : ∀ c ∈ right ++ after, isBlank c = true := List.forall_mem_append.mpr ⟨hr, ha⟩
  have hsplit : before ++ (cs ++ after) = (before ++ left) ++ (trim cs ++ (right ++ after)) := by
    calc before ++ (cs ++ after) = before ++ ((left ++ (trim cs ++ right)) ++ after) := by rw [← hcs]
      _ = (before ++ left) ++ (trim cs ++ (right ++ after)) := by simp only [List.append_assoc]
  rw [hsplit]
  by_cases hne : trim cs = []
  · rw [hne, List.nil_append]
    exact trim_of_blank (List.forall_mem_append.mpr ⟨hleft, hright⟩)
  · exact trim_append hleft hright hne hfirst hlast

/-- What starts with no blank still starts so. -/
theorem trim_cons {c : Char} (hc : isBlank c = false) (cs : List Char) : ∃ rest, trim (c :: cs) = c :: rest := by
  have hstart : trimStart (c :: cs) = c :: cs := List.dropWhile_cons_of_neg (by simp [hc])
  obtain ⟨after, ha, hcs⟩ := trimStart_eq_trim_append (c :: cs)
  rw [hstart] at hcs
  cases htrim : trim (c :: cs) with
  | nil =>
    rw [htrim, List.nil_append] at hcs
    have hblank := ha c (hcs ▸ List.mem_cons_self)
    rw [hc] at hblank
    contradiction
  | cons d rest =>
    rw [htrim, List.cons_append, List.cons.injEq] at hcs
    exact ⟨rest, by rw [hcs.1]⟩

end WidgetSync.Text
