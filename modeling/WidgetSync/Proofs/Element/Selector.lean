import WidgetSync.Element.Selector

/-! What a selector selects, told from its text. Blanks around the text and empty parts of it do not count, and neither
does the order in which it lists classes, nor how often. -/
namespace WidgetSync.Selector

variable {text tag : String} {classes : List String} {face : Face}

/-- A face is of the tag that the text starts with, if that is one, and of all classes that the text lists; a text that
asks for neither matches nothing. -/
def Matches (text : String) (face : Face) : Prop :=
  ∃ first rest, (Text.trim text.toList).splitOn '.' = first :: rest ∧
    (first = [] ∨ first = ['*'] ∨ String.ofList first = face.tag) ∧
    (∀ part ∈ rest, part ≠ [] → String.ofList part ∈ face.classes) ∧
    (first ≠ [] ∧ first ≠ ['*'] ∨ ∃ part ∈ rest, part ≠ [])

theorem splitDots_eq_splitOn (cs : List Char) : splitDots cs = cs.splitOn '.' := by
  induction cs with
  | nil => rfl
  | cons c cs ih =>
    rw [splitDots, List.splitOn_cons_eq_if_modifyHead, ih]
    by_cases hc : c = '.'
    · simp [hc]
    · obtain ⟨part, parts, hparts⟩ := List.exists_cons_of_ne_nil (List.splitOn_ne_nil '.' cs)
      simp [hc, hparts]

variable {first : List Char} {rest : List (List Char)}

theorem ofString_eq (h : (Text.trim text.toList).splitOn '.' = first :: rest) : ofString text =
    { tag := if first = [] ∨ first = ['*'] then none else some (String.ofList first)
      classes := (rest.filter (· ≠ [])).map String.ofList } := by
  rw [ofString, splitDots_eq_splitOn, h]

theorem matches_iff (h : (Text.trim text.toList).splitOn '.' = first :: rest) : Matches text face ↔
    (first = [] ∨ first = ['*'] ∨ String.ofList first = face.tag) ∧
      (∀ part ∈ rest, part ≠ [] → String.ofList part ∈ face.classes) ∧
      (first ≠ [] ∧ first ≠ ['*'] ∨ ∃ part ∈ rest, part ≠ []) := by
  constructor
  · rintro ⟨first', rest', h', hmatches⟩
    obtain ⟨rfl, rfl⟩ := List.cons.inj (h.symm.trans h')
    exact hmatches
  · exact fun hmatches => ⟨first, rest, h, hmatches⟩

theorem selects_ofString : (ofString text).selects face = true ↔ Matches text face := by
  obtain ⟨first, rest, h⟩ := List.exists_cons_of_ne_nil (List.splitOn_ne_nil '.' (Text.trim text.toList))
  have hasks : (ofString text).tag.isSome = true ↔ first ≠ [] ∧ first ≠ ['*'] := by
    simp [ofString_eq h]
  have htag : (ofString text).tag.all (· = face.tag) = true ↔
      first = [] ∨ first = ['*'] ∨ String.ofList first = face.tag := by
    -- Where any tag will do there is none to compare, whatever the text starts with.
    by_cases hany : first = [] ∨ first = ['*']
    · simpa [ofString_eq h, hany] using hany.imp_right Or.inl
    · simp only [not_or] at hany
      simp [ofString_eq h, hany]
  have hlists : (!(ofString text).classes.isEmpty) = true ↔ ∃ part ∈ rest, part ≠ [] := by
    simp [ofString_eq h]
  have hclasses : (ofString text).classes.all face.hasClass = true ↔
      ∀ part ∈ rest, part ≠ [] → String.ofList part ∈ face.classes := by
    simp [ofString_eq h, Face.hasClass, Decidable.or_iff_not_imp_left]
  rw [matches_iff h, selects, Bool.and_eq_true, Bool.and_eq_true, Bool.or_eq_true, hasks, htag, hlists, hclasses]
  exact and_assoc.trans and_rotate

/-! ### Texts that list a tag and classes -/

/-- Within blanks, a text is a tag and classes with a dot before each. -/
structure Spells (text tag : String) (classes : List String) : Prop where
  trimmed : Text.trim text.toList = (".".intercalate (tag :: classes)).toList
  tag_whole : '.' ∉ tag.toList
  classes_whole : ∀ c ∈ classes, c ≠ "" ∧ '.' ∉ c.toList

namespace Spells

theorem splitOn_eq (h : Spells text tag classes) :
    (Text.trim text.toList).splitOn '.' = tag.toList :: classes.map String.toList := by
  rw [h.trimmed, String.toList_intercalate]
  refine List.splitOn_intercalate '.' ?_ (List.cons_ne_nil _ _)
  simpa using ⟨h.tag_whole, fun c hc => (h.classes_whole c hc).2⟩

theorem matches_iff (h : Spells text tag classes) : Matches text face ↔
    (tag = "" ∨ tag = "*" ∨ tag = face.tag) ∧ classes ⊆ face.classes ∧ (tag ≠ "" ∧ tag ≠ "*" ∨ classes ≠ []) := by
  have hstar : tag.toList = ['*'] ↔ tag = "*" := @String.toList_inj tag "*"
  have hpart : ∀ c ∈ classes, c.toList ≠ [] := fun c hc hnil =>
    (h.classes_whole c hc).1 (String.toList_eq_nil_iff.mp hnil)
  have hsubset : (∀ part ∈ classes.map String.toList, part ≠ [] → String.ofList part ∈ face.classes) ↔
      classes ⊆ face.classes := by
    simp only [List.forall_mem_map, String.ofList_toList]
    exact forall₂_congr fun c hc => ⟨fun hface => hface (hpart c hc), fun hface _ => hface⟩
  have hlists : (∃ part ∈ classes.map String.toList, part ≠ []) ↔ classes ≠ [] := by
    constructor
    · rintro ⟨_, hmem, -⟩ rfl
      exact List.not_mem_nil hmem
    · intro hne
      obtain ⟨c, hc⟩ := List.exists_mem_of_ne_nil classes hne
      exact ⟨c.toList, List.mem_map_of_mem hc, hpart c hc⟩
  rw [Selector.matches_iff h.splitOn_eq, hsubset, hlists, String.ofList_toList, Ne, Ne, hstar, String.toList_eq_nil_iff]

/-- Any tag will do, and the order of the classes does not matter, nor how often one is listed. -/
theorem matches_classes (h : Spells text "" classes) (hne : classes ≠ []) :
    Matches text face ↔ classes ⊆ face.classes := by
  simp [h.matches_iff, hne]

theorem matches_tag (h : Spells text tag classes) (hempty : tag ≠ "") (hstar : tag ≠ "*") :
    Matches text face ↔ tag = face.tag ∧ classes ⊆ face.classes := by
  simp [h.matches_iff, hempty, hstar]

example : Spells " div.wide.wide\t" "div" ["wide", "wide"] := ⟨by decide, by decide, by decide⟩

end Spells

end WidgetSync.Selector
