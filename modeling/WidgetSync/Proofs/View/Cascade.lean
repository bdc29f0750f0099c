import WidgetSync.Proofs.Element.Selector
import WidgetSync.Proofs.Text.Order
import WidgetSync.Proofs.View.Layers

/-! The cascade of style overrides. Several selectors may be for one part of an element and set the same property there;
the last of them in the order of their bytes decides, and a property that none of them sets stays as it is. -/
namespace WidgetSync

/-- The parts of an element, by their paths, that the styles of a selector are for. -/
inductive View.Addresses (styleTarget : Option String) (e : Element) : String → List Nat → Prop
  | named {selector : String} {path : List Nat} {face : Face} (hs : selector ≠ "") (hp : path ≠ [])
      (hf : e.faceAt? path = some face) (hm : Selector.Matches selector face) :
      Addresses styleTarget e selector path
  | target {target : String} {path : List Nat} {face : Face} (ht : styleTarget = some target) (hp : path ≠ [])
      (hf : e.faceAt? path = some face) (hm : Selector.Matches target face) :
      Addresses styleTarget e "" path
  | root (ht : styleTarget = none) : Addresses styleTarget e "" []

theorem Selector.reaches_ofString {text : String} {e : Element} {path : List Nat} :
    (ofString text).reaches e path = true ↔ path ≠ [] ∧ ∃ face, e.faceAt? path = some face ∧ Matches text face := by
  rw [reaches, Bool.and_eq_true, decide_eq_true_iff, Option.any_eq_true]
  simp only [selects_ofString]

theorem View.addresses_iff {styleTarget : Option String} {e : Element} {selector : String} {path : List Nat} :
    Addresses styleTarget e selector path ↔ reaches styleTarget e path selector = true := by
  rw [reaches]
  constructor
  · rintro (⟨hs, hp, hf, hm⟩ | ⟨ht, hp, hf, hm⟩ | ⟨ht⟩)
    · rw [if_pos hs]
      exact Selector.reaches_ofString.mpr ⟨hp, _, hf, hm⟩
    · rw [if_neg (not_not_intro rfl), ht]
      exact Selector.reaches_ofString.mpr ⟨hp, _, hf, hm⟩
    · rw [if_neg (not_not_intro rfl), ht]
      rfl
  · intro h
    split at h
    · next hs =>
      obtain ⟨hp, face, hf, hm⟩ := Selector.reaches_ofString.mp h
      exact .named hs hp hf hm
    · next hs =>
      obtain rfl := not_not.mp hs
      cases ht : styleTarget with
      | none =>
        rw [ht] at h
        obtain rfl := of_decide_eq_true h
        exact .root rfl
      | some target =>
        rw [ht] at h
        obtain ⟨hp, face, hf, hm⟩ := Selector.reaches_ofString.mp h
        exact .target rfl hp hf hm

namespace Css

variable {css : Css} {addressed : String → Prop} {property : String}

/-- A selector is for the part in question and has a value for the property. -/
def Assigns (css : Css) (addressed : String → Prop) (property selector : String) (value : Value) : Prop :=
  addressed selector ∧ ∃ properties, css.get? selector = some properties ∧ properties.get? property = some value

/-- The last selector that has a value for the property, in the order of bytes, has this one. -/
def Decides (css : Css) (addressed : String → Prop) (property : String) (value : Value) : Prop :=
  ∃ selector, css.Assigns addressed property selector value ∧
    ∀ other value', css.Assigns addressed property other value' → other ≠ selector →
      other.toUTF8.toList < selector.toUTF8.toList

theorem Assigns.value_unique {selector : String} {value value' : Value}
    (h : css.Assigns addressed property selector value) (h' : css.Assigns addressed property selector value') :
    value = value' := by
  obtain ⟨_, properties, hget, hvalue⟩ := h
  obtain ⟨_, properties', hget', hvalue'⟩ := h'
  obtain rfl := Option.some.inj (hget.symm.trans hget')
  exact Option.some.inj (hvalue.symm.trans hvalue')

theorem Decides.unique {value value' : Value} (h : css.Decides addressed property value)
    (h' : css.Decides addressed property value') : value = value' := by
  obtain ⟨selector, hassigns, hlast⟩ := h
  obtain ⟨selector', hassigns', hlast'⟩ := h'
  by_cases hs : selector = selector'
  · subst hs
    exact hassigns.value_unique hassigns'
  · exact absurd (hlast selector' value' hassigns' (Ne.symm hs))
      (List.lt_asymm (hlast' selector value hassigns hs))

/-- What an entry has to say about a property. -/
def said? (reached : String → Bool) (property : String) (p : String × OrdMap String Value) : Option Value :=
  if reached p.1 then p.2.get? property else none

/-- Overwriting one after the other leaves the value that came last. -/
theorem get?_dress (reached : String → Bool) (overrides : List (String × OrdMap String Value))
    (styles : OrdMap String String) : (dress reached overrides styles).get? property =
      ((overrides.reverse.findSome? (said? reached property)).map text).or (styles.get? property) := by
  induction overrides generalizing styles with
  | nil => rfl
  | cons p rest ih =>
    have hfirst : (if reached p.1 then View.overrideStyles p.2 styles else styles).get? property =
        ((said? reached property p).map text).or (styles.get? property) := by
      rw [said?]
      split
      · exact get?_overrideStyles p.2 styles
      · rfl
    rw [dress_cons, ih, hfirst, List.reverse_cons, List.findSome?_append, Option.map_or, Option.or_assoc]
    rw [List.findSome?_singleton]

section Reached

variable {reached : String → Bool} (hr : ∀ selector, addressed selector ↔ reached selector = true)

include hr

theorem assigns_iff {selector : String} {value : Value} : css.Assigns addressed property selector value ↔
    ∃ p ∈ css.entries, p.1 = selector ∧ said? reached property p = some value := by
  rw [Assigns, hr]
  constructor
  · rintro ⟨haddressed, properties, hget, hvalue⟩
    exact ⟨(selector, properties), OrdMap.get?_eq_some_iff.mp hget, rfl, (if_pos haddressed).trans hvalue⟩
  · rintro ⟨p, hp, rfl, hsaid⟩
    obtain ⟨haddressed, hvalue⟩ := Option.ite_none_right_eq_some.mp hsaid
    exact ⟨haddressed, p.2, OrdMap.get?_eq_some_iff.mpr hp, hvalue⟩

/-- The entries after the one that speaks last say nothing, and those before it have lesser selectors. -/
theorem decides_of_findSome? {value : Value}
    (h : css.entries.reverse.findSome? (said? reached property) = some value) :
    css.Decides addressed property value := by
  obtain ⟨after, p, before, hentries, hsaid, hafter⟩ := List.findSome?_eq_some_iff.mp h
  have hsplit : css.entries = before.reverse ++ p :: after.reverse := by
    rw [← List.reverse_reverse css.entries, hentries]
    simp
  have hascending := css.ascending
  rw [hsplit] at hascending
  obtain ⟨-, -, hbefore⟩ := List.pairwise_append.mp hascending
  refine ⟨p.1, (assigns_iff hr).mpr ⟨p, by simp [hsplit], rfl, hsaid⟩, fun other value' hassigns hne => ?_⟩
  obtain ⟨q, hq, rfl, hq'⟩ := (assigns_iff hr).mp hassigns
  rw [hsplit, List.mem_append, List.mem_cons] at hq
  rcases hq with hfront | rfl | hback
  · exact Text.Utf8.compare_eq_lt_iff.mp (hbefore q hfront p List.mem_cons_self)
  · exact absurd rfl hne
  · rw [hafter q (List.mem_reverse.mp hback)] at hq'
    contradiction

theorem findSome?_eq_some_iff {value : Value} :
    css.entries.reverse.findSome? (said? reached property) = some value ↔ css.Decides addressed property value := by
  refine ⟨decides_of_findSome? hr, fun h => ?_⟩
  -- What is found decides, and only one value does; to find nothing, the selector that decides would have to be silent.
  cases hfound : css.entries.reverse.findSome? (said? reached property) with
  | some value' => rw [(decides_of_findSome? hr hfound).unique h]
  | none =>
    obtain ⟨selector, hassigns, -⟩ := h
    obtain ⟨p, hp, -, hsaid⟩ := (assigns_iff hr).mp hassigns
    rw [List.findSome?_eq_none_iff.mp hfound p (List.mem_reverse.mpr hp)] at hsaid
    contradiction

theorem findSome?_eq_none_iff : css.entries.reverse.findSome? (said? reached property) = none ↔
    ∀ selector value, ¬css.Assigns addressed property selector value := by
  rw [List.findSome?_eq_none_iff]
  constructor
  · intro h selector value hassigns
    obtain ⟨p, hp, -, hsaid⟩ := (assigns_iff hr).mp hassigns
    rw [h p (List.mem_reverse.mpr hp)] at hsaid
    contradiction
  · intro h p hp
    rw [Option.eq_none_iff_forall_ne_some]
    exact fun value hsaid => h p.1 value ((assigns_iff hr).mpr ⟨p, List.mem_reverse.mp hp, rfl, hsaid⟩)

theorem get?_dress_eq_some_iff {styles : OrdMap String String} {t : String} :
    (dress reached css.entries styles).get? property = some t ↔
      (∃ value, css.Decides addressed property value ∧ t = text value) ∨
        (∀ selector value, ¬css.Assigns addressed property selector value) ∧ styles.get? property = some t := by
  rw [get?_dress, Option.or_eq_some_iff, Option.map_eq_some_iff, Option.map_eq_none_iff, findSome?_eq_none_iff hr]
  simp only [findSome?_eq_some_iff hr, eq_comm]

end Reached

end Css

namespace View

/-- Following a model changes styles, and whether the element as a whole is hidden, and nothing else. A style of a part
is what the last selector for it says, in the order of their bytes, or what it was if none says anything. -/
theorem styles_cascade (v : View) (m : Model) :
    (∃ isHidden, (v.follow m).element.bare = v.element.bare.modifyFace (·.setHidden isHidden)) ∧
      ∀ path property text, (v.follow m).element.HasStyle path property text ↔
        v.element.faceAt? path ≠ none ∧
          ((∃ value, m.css.Decides (Addresses v.styleTarget v.element · path) property value ∧
              text = Css.text value) ∨
            (∀ selector value, ¬m.css.Assigns (Addresses v.styleTarget v.element · path) property selector value) ∧
              v.element.HasStyle path property text) := by
  refine ⟨v.bare_follow m, fun path property text => ?_⟩
  rw [Element.HasStyle, Element.HasStyle, stylesAt?_follow, Element.stylesAt?]
  cases v.element.faceAt? path with
  | none => simp
  | some face =>
    simp only [Option.map_some, Option.some.injEq, exists_eq_left', ne_eq, reduceCtorEq, not_false_eq_true, true_and]
    exact Css.get?_dress_eq_some_iff fun selector => addresses_iff

/-- A blank selector names nothing, and comes before those that do. -/
example :
    let part := (Element.new "p").withClass "a"
    let v : View := { blank .plain ⟨"comm"⟩ (.cell 0) with element := (Element.new "div").withChild part }
    let color (text : String) : OrdMap String Value := .ofList [("color", .ofString text)]
    let css : Css := .ofList [("p", color "blue"), (" ", color "green"), ("*.a", color "red")]
    ((v.followStyles css).element.stylesAt? [0]).map (·.get? "color") = some (some "blue") := by decide

end View

end WidgetSync
