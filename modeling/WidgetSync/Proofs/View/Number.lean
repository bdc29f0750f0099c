import WidgetSync.Proofs.View.Picture
import WidgetSync.Proofs.Text.Integer

/-! Numbers that users propose, typed into a box or set on a slider. Both kinds of view bring the number into the
bounds of the model, show it, and ask for it unless the model stands there already. -/
namespace WidgetSync

theorem Int64.toInt_min (a b : Int64) : (min a b).toInt = min a.toInt b.toInt := by
  have hmin : min a b = if a ≤ b then a else b := rfl
  simp only [hmin, Int64.le_iff_toInt_le]
  split <;> omega

theorem Int64.toInt_max (a b : Int64) : (max a b).toInt = max a.toInt b.toInt := by
  have hmax : max a b = if a ≤ b then b else a := rfl
  simp only [hmax, Int64.le_iff_toInt_le]
  split <;> omega

namespace Attributes

variable {a : Attributes}

/-! ### Bounds -/

/-- Bounds as whole numbers, on which `omega` decides. -/
theorem toInt_clamp (a : Attributes) (n : Int64) : (a.clamp n).toInt =
    let top := (a.getInt? "max").elim n.toInt fun high => min n.toInt high.toInt
    (a.getInt? "min").elim top fun low => max top low.toInt := by
  rw [clamp]
  cases a.getInt? "max" <;> cases a.getInt? "min" <;>
    simp only [Option.elim_none, Option.elim_some, Int64.toInt_min, Int64.toInt_max]

theorem clamp_mono (a : Attributes) {n k : Int64} (h : n ≤ k) : a.clamp n ≤ a.clamp k := by
  rw [Int64.le_iff_toInt_le] at h
  rw [Int64.le_iff_toInt_le, toInt_clamp, toInt_clamp]
  cases a.getInt? "max" <;> cases a.getInt? "min" <;> simp only [Option.elim_none, Option.elim_some] <;> omega

theorem clamp_clamp (a : Attributes) (n : Int64) : a.clamp (a.clamp n) = a.clamp n := by
  rw [← Int64.toInt_inj, toInt_clamp a (a.clamp n), toInt_clamp]
  cases a.getInt? "max" <;> cases a.getInt? "min" <;> simp only [Option.elim_none, Option.elim_some] <;> omega

theorem low_le_clamp {low : Int64} (hl : a.get? "min" = some (.ofInt64 low)) (n : Int64) : low ≤ a.clamp n := by
  rw [Int64.le_iff_toInt_le, toInt_clamp, getInt?_eq_some_iff.mpr hl]
  simp only [Option.elim_some]
  omega

theorem clamp_le_high {high : Int64} (hh : a.get? "max" = some (.ofInt64 high))
    (hle : ∀ low, a.get? "min" = some (.ofInt64 low) → low ≤ high) (n : Int64) : a.clamp n ≤ high := by
  rw [Int64.le_iff_toInt_le, toInt_clamp, getInt?_eq_some_iff.mpr hh]
  cases hmin : a.getInt? "min" with
  | none =>
    simp only [Option.elim_none, Option.elim_some]
    omega
  | some low =>
    have hlow : low.toInt ≤ high.toInt := Int64.le_iff_toInt_le.mp (hle low (getInt?_eq_some_iff.mp hmin))
    simp only [Option.elim_some]
    omega

theorem clamp_of_inverted {low high : Int64} (hl : a.get? "min" = some (.ofInt64 low))
    (hh : a.get? "max" = some (.ofInt64 high)) (hlt : high < low) (n : Int64) : a.clamp n = low := by
  rw [Int64.lt_iff_toInt_lt] at hlt
  rw [← Int64.toInt_inj, toInt_clamp, getInt?_eq_some_iff.mpr hl, getInt?_eq_some_iff.mpr hh]
  simp only [Option.elim_some]
  omega

/-- A number within the bounds stays as it is. -/
theorem clamp_eq_self {n : Int64} (hl : ∀ low, a.get? "min" = some (.ofInt64 low) → low ≤ n)
    (hh : ∀ high, a.get? "max" = some (.ofInt64 high) → n ≤ high) : a.clamp n = n := by
  have hlow : ∀ low, a.getInt? "min" = some low → low.toInt ≤ n.toInt :=
    fun low h => Int64.le_iff_toInt_le.mp (hl low (getInt?_eq_some_iff.mp h))
  have hhigh : ∀ high, a.getInt? "max" = some high → n.toInt ≤ high.toInt :=
    fun high h => Int64.le_iff_toInt_le.mp (hh high (getInt?_eq_some_iff.mp h))
  rw [← Int64.toInt_inj, toInt_clamp]
  cases hmax : a.getInt? "max" with
  | none =>
    cases hmin : a.getInt? "min" with
    | none => rfl
    | some low =>
      have h := hlow low hmin
      simp only [Option.elim_none, Option.elim_some]
      omega
  | some high =>
    have h := hhigh high hmax
    cases hmin : a.getInt? "min" with
    | none =>
      simp only [Option.elim_none, Option.elim_some]
      omega
    | some low =>
      have h' := hlow low hmin
      simp only [Option.elim_some]
      omega

/-! ### Proposals -/

theorem clamp_withValue (a : Attributes) (value : Value) (n : Int64) : (a.withValue value).clamp n = a.clamp n := by
  simp [clamp]

theorem standsAt_iff {n : Int64} : a.StandsAt n ↔ a.intValue = n := by
  constructor
  · rintro (h | ⟨rfl, hnone⟩)
    · rw [intValue, getInt?_eq_some_iff.mpr h, Option.getD_some]
    · have hmissing : a.getInt? "value" = none :=
        Option.eq_none_iff_forall_ne_some.mpr fun k hk => hnone k (getInt?_eq_some_iff.mp hk)
      rw [intValue, hmissing, Option.getD_none]
  · rintro rfl
    exact a.standsAt

/-- The same number proposed to a model that has just taken it is no news. -/
theorem propose_withValue (a : Attributes) (n : Int64) :
    (a.withValue (.ofInt64 (a.clamp n))).propose n = none := by
  rw [propose, clamp_withValue, intValue_withValue, if_pos rfl]

end Attributes

/-! ### Parts of elements -/

namespace Element

theorem length_children_of_bare {e e' : Element} (h : e.bare = e'.bare) :
    e.children.length = e'.children.length := by
  have hchildren : e.children.map bare = e'.children.map bare := by rw [← children_bare, ← children_bare, h]
  rw [← List.length_map bare, hchildren, List.length_map]

theorem length_children_modifyChild (e : Element) (index : Nat) (f : Element → Element) :
    (e.modifyChild index f).children.length = e.children.length := List.length_modify _ _ _

theorem hasAt_onChild {e : Element} {index : Nat} (hi : index < e.children.length) {f : Face → Face}
    {P : Face → Prop} (hP : ∀ x, P (f x)) : (ViewKind.onChild e index f).HasAt [index] P := by
  refine ⟨e.children[index].modifyFace f, ?_, hP _⟩
  have hpart : (ViewKind.onChild e index f).children[index]? = some (e.children[index].modifyFace f) := by
    show (e.children.modify index _)[index]? = _
    simp only [List.getElem?_modify, if_true, List.getElem?_eq_getElem hi]
    rfl
  rw [at?, hpart]
  rfl

theorem hasAt_onChild_of_ne {e : Element} {index other : Nat} (hne : index ≠ other) {f : Face → Face}
    {P : Face → Prop} (h : e.HasAt [other] P) : (ViewKind.onChild e index f).HasAt [other] P := by
  obtain ⟨part, hpart, hp⟩ := h
  refine ⟨part, ?_, hp⟩
  have hsame : (ViewKind.onChild e index f).children[other]? = e.children[other]? := by
    show (e.children.modify index _)[other]? = _
    simp only [List.getElem?_modify, if_neg hne]
    exact Option.map_id'
  rw [at?, hsame]
  exact hpart

end Element

namespace ViewKind

theorem length_children_draw (a : Attributes) (e : Element) (kind : ViewKind) :
    (kind.draw a e).children.length = e.children.length := by
  cases kind with
  | plain | button | container => rfl
  | checkbox | toggleButton | intText | intSlider | progress =>
    simp only [draw, drawChecked, drawActive, drawText, drawSlider, drawLabel, onChild,
      Element.length_children_modifyChild]

theorem length_children_react (a : Attributes) (e : Element) (kind : ViewKind) (event : UiEvent) :
    (kind.react a e event).1.children.length = e.children.length := by
  have hpart (index : Nat) (f : Face → Face) : (onChild e index f).children.length = e.children.length :=
    e.length_children_modifyChild index _
  cases kind with
  | checkbox =>
    cases event with
    | click => exact hpart 1 _
    | _ => rfl
  | toggleButton =>
    cases event with
    | click => exact hpart 0 _
    | _ => rfl
  | intText =>
    cases event with
    | input text =>
      rw [react]
      split
      · exact hpart 1 _
      · rfl
    | _ => rfl
  | intSlider =>
    cases event with
    | slide n => exact (Element.length_children_modifyChild _ 2 _).trans (hpart 1 _)
    | _ => rfl
  | _ => cases event <;> rfl

end ViewKind

namespace View

/-- A view at any time of its life: new, drawn from a model, or after an event. -/
inductive Lived : View → Prop
  | new (kind : ViewKind) (model : CommId) (group : GroupKey) : Lived (.new kind model group)
  | refresh {v : View} (h : v.Lived) (m : Model) : Lived (v.refresh m)
  | handleEvent {v : View} (h : v.Lived) (event : UiEvent) (m : Model) : Lived (v.handleEvent event m).1

variable {v : View}

theorem length_children_refresh (v : View) (m : Model) :
    (v.refresh m).element.children.length = v.element.children.length := by
  have hstyles := bare_followStyles
    (followVisibility { v with element := v.kind.draw m.attributes v.element } m.attributes) m.css
  rw [refresh, follow, Element.length_children_of_bare hstyles, followVisibility]
  split
  · exact ViewKind.length_children_draw _ _ _
  · split <;> exact ViewKind.length_children_draw _ _ _

theorem length_children_handleEvent (v : View) (event : UiEvent) (m : Model) :
    (v.handleEvent event m).1.element.children.length = v.element.children.length := by
  rw [View.handleEvent]
  split
  · rfl
  · exact ViewKind.length_children_react _ _ _ _

/-- No part of a view is ever lost. -/
theorem Lived.length_children (h : v.Lived) : v.element.children.length = v.kind.layout.children.length := by
  induction h with
  | new kind model group => cases kind <;> rfl
  | refresh _ m ih => rw [length_children_refresh, kind_refresh, ih]
  | handleEvent _ event m ih => rw [length_children_handleEvent, kind_handleEvent, ih]

/-! ### Box and slider -/

/-- A box with a number in it. -/
def BoxShows (v : View) (n : Int64) : Prop :=
  v.element.HasAt [1] fun f => f.attributes.get? "value" = some (decimalText n)

/-- A slider that is set to a number, which stands beside it. -/
def SliderShows (v : View) (n : Int64) : Prop :=
  (v.element.HasAt [1] fun f => f.attributes.get? "value" = some (decimalText n)) ∧
    v.element.HasAt [2] fun f => f.html = decimalText n

section Agree

variable {m : Model} {box slider : View} (hbox : box.kind = .intText) (hslider : slider.kind = .intSlider)

theorem handleEvent_of_disabled (hd : m.attributes.isDisabled = true) (v : View) (event : UiEvent) :
    v.handleEvent event m = (v, none) := if_pos hd

include hbox in
/-- A box takes the number that its text denotes. -/
theorem handleEvent_box (he : m.attributes.isDisabled = false) {text : String} {n : Int64}
    (ht : Text.Denotes text.toList n) : box.handleEvent (.input text) m =
      ({ box with element := ViewKind.drawText (m.attributes.clamp n) box.element }, m.attributes.propose n) := by
  have hread : Text.int64? (Text.trim text.toList) = some n := Text.int64?_trim_eq_some_iff.mpr ht
  simp only [View.handleEvent, he, Bool.false_eq_true, if_false, hbox, ViewKind.react, hread]

include hbox in
theorem handleEvent_box_of_not_denotes {text : String} (ht : ∀ n, ¬Text.Denotes text.toList n) :
    box.handleEvent (.input text) m = (box, none) := by
  have hread : Text.int64? (Text.trim text.toList) = none := Text.int64?_trim_eq_none_iff.mpr ht
  have hreact : box.kind.react m.attributes box.element (.input text) = (box.element, none) := by
    rw [hbox, ViewKind.react, hread]
  simp only [View.handleEvent, hreact, ite_self]

include hslider in
theorem handleEvent_slider (he : m.attributes.isDisabled = false) (n : Int64) : slider.handleEvent (.slide n) m =
    ({ slider with element := ViewKind.drawSlider (m.attributes.clamp n) slider.element },
      m.attributes.propose n) := by
  simp only [View.handleEvent, he, Bool.false_eq_true, if_false, hslider, ViewKind.react]

theorem Lived.boxShows (h : box.Lived) (hk : box.kind = .intText) (n : Int64) :
    BoxShows { box with element := ViewKind.drawText n box.element } n := by
  have hparts : box.element.children.length = 2 := by rw [h.length_children, hk]; rfl
  exact Element.hasAt_onChild (by omega) fun f => OrdMap.get?_insert_self _ _ _

theorem Lived.sliderShows (h : slider.Lived) (hk : slider.kind = .intSlider) (n : Int64) :
    SliderShows { slider with element := ViewKind.drawSlider n slider.element } n := by
  have hparts : slider.element.children.length = 3 := by rw [h.length_children, hk]; rfl
  constructor
  · exact Element.hasAt_onChild_of_ne (by decide)
      (Element.hasAt_onChild (by omega) fun f => OrdMap.get?_insert_self _ _ _)
  · refine Element.hasAt_onChild ?_ fun f => rfl
    rw [ViewKind.onChild, Element.length_children_modifyChild]
    omega

end Agree

/-- A number typed into a box and a number set on a slider come to the same, whatever the attributes of the model are.
The views ask for the number as the bounds allow it, once at most, and both show that one. -/
theorem box_and_slider_agree (m : Model) :
    let a := m.attributes
    -- A number is brought under the upper bound and then over the lower one.
    (∀ n k, n ≤ k → a.clamp n ≤ a.clamp k) ∧ (∀ n, a.clamp (a.clamp n) = a.clamp n) ∧
    (∀ n low, a.get? "min" = some (.ofInt64 low) → low ≤ a.clamp n) ∧
    (∀ n high, a.get? "max" = some (.ofInt64 high) →
      (∀ low, a.get? "min" = some (.ofInt64 low) → low ≤ high) → a.clamp n ≤ high) ∧
    (∀ n low high, a.get? "min" = some (.ofInt64 low) → a.get? "max" = some (.ofInt64 high) → high < low →
      a.clamp n = low) ∧
    (∀ n, (∀ low, a.get? "min" = some (.ofInt64 low) → low ≤ n) →
      (∀ high, a.get? "max" = some (.ofInt64 high) → n ≤ high) → a.clamp n = n) ∧
    -- The decimal text of a number denotes the number, whatever blanks stand around it.
    (∀ n before after, (∀ c ∈ before, Text.isBlank c = true) → (∀ c ∈ after, Text.isBlank c = true) →
      Text.Denotes (before ++ ((decimalText n).toList ++ after)) n) ∧
    ∀ box slider : View, box.Lived → slider.Lived → box.kind = .intText → slider.kind = .intSlider →
      (∀ n text, Text.Denotes text.toList n →
        let v := a.clamp n
        let typed := box.handleEvent (.input text) m
        let slid := slider.handleEvent (.slide n) m
        let taken := m.set (.ofList [("value", .ofInt64 v)])
        typed.2 = slid.2 ∧
        (a.get? "disabled" = some (.ofBool true) ∨ a.StandsAt v → slid.2 = none) ∧
        (a.get? "disabled" ≠ some (.ofBool true) →
          (¬a.StandsAt v → slid.2 = some (.sync (.ofList [("value", .ofInt64 v)]))) ∧
          BoxShows typed.1 v ∧ SliderShows slid.1 v) ∧
        -- When the model has taken the number, there is no more to ask for.
        (typed.1.handleEvent (.input text) taken).2 = none ∧ (slid.1.handleEvent (.slide n) taken).2 = none) ∧
      ∀ text, (∀ n, ¬Text.Denotes text.toList n) → box.handleEvent (.input text) m = (box, none) := by
  intro a
  refine ⟨fun n k => a.clamp_mono, a.clamp_clamp, fun n low hl => Attributes.low_le_clamp hl n,
    fun n high hh hle => Attributes.clamp_le_high hh hle n,
    fun n low high hl hh hlt => Attributes.clamp_of_inverted hl hh hlt n,
    fun n hl hh => Attributes.clamp_eq_self hl hh, ?_, ?_⟩
  · intro n before after hb ha
    rw [decimalText, String.toList_ofList]
    exact Text.denotes_ofInt hb ha n
  intro box slider hlived hlived' hbox hslider
  refine ⟨fun n text ht => ?_, fun text ht => handleEvent_box_of_not_denotes hbox ht⟩
  intro v typed slid taken
  have htyped : typed.1.kind = .intText := (kind_handleEvent _ _ _).trans hbox
  have hslid : slid.1.kind = .intSlider := (kind_handleEvent _ _ _).trans hslider
  have htaken : taken.attributes.isDisabled = a.isDisabled := Attributes.isDisabled_withValue a _
  -- If it is disabled then neither view takes the event. Else each proposes the number, and draws it on its own parts.
  cases hd : a.isDisabled with
  | true =>
    have hdisabled : a.get? "disabled" = some (.ofBool true) := Attributes.isDisabled_iff.mp hd
    have hbox' : typed = (box, none) := handleEvent_of_disabled hd box _
    have hslider' : slid = (slider, none) := handleEvent_of_disabled hd slider _
    rw [hd] at htaken
    refine ⟨by rw [hbox', hslider'], fun _ => by rw [hslider'], fun hne => absurd hdisabled hne, ?_, ?_⟩ <;>
      rw [handleEvent_of_disabled htaken]
  | false =>
    have henabled : a.get? "disabled" ≠ some (.ofBool true) := by
      rw [ne_eq, ← Attributes.isDisabled_iff, hd]
      exact Bool.false_ne_true
    have hbox' : typed = _ := handleEvent_box hbox hd ht
    have hslider' : slid = _ := handleEvent_slider hslider hd n
    have hagain : taken.attributes.propose n = none := a.propose_withValue n
    rw [hd] at htaken
    refine ⟨by rw [hbox', hslider'], ?_, fun _ => ⟨fun hother => ?_, ?_, ?_⟩, ?_, ?_⟩
    · rintro (hdisabled | hstands)
      · exact absurd hdisabled henabled
      · rw [hslider', Attributes.propose, if_pos (Attributes.standsAt_iff.mp hstands).symm]
    · have hnews : a.clamp n ≠ a.intValue := fun he => hother (Attributes.standsAt_iff.mpr he.symm)
      rw [hslider', Attributes.propose, if_neg hnews]
      rfl
    · rw [hbox']
      exact hlived.boxShows hbox v
    · rw [hslider']
      exact hlived'.sliderShows hslider v
    · rw [handleEvent_box htyped htaken ht]
      exact hagain
    · rw [handleEvent_slider hslid htaken]
      exact hagain

/-- The bounds are inverted and the value is no number. The least number of all becomes the lower bound. -/
theorem inverted_bounds_agree :
    let m := (Model.new "IntWidgetModel" (.opened ⟨"c"⟩)).set (.ofList [("value", .ofString "7"),
      ("min", .ofInt64 10), ("max", .ofInt64 (-10))])
    let text := String.ofList (['\u3000'] ++ ((decimalText Int64.minValue).toList ++ ['\n']))
    let box := View.new .intText ⟨"c"⟩ .detached
    let slider := (View.new .intSlider ⟨"c"⟩ .detached).refresh m
    let typed := box.handleEvent (.input text) m
    let slid := slider.handleEvent (.slide Int64.minValue) m
    let taken := m.set (.ofList [("value", .ofInt64 10)])
    typed.2 = some (.sync (.ofList [("value", .ofInt64 10)])) ∧ slid.2 = typed.2 ∧ BoxShows typed.1 10 ∧
      SliderShows slid.1 10 ∧ (typed.1.handleEvent (.input text) taken).2 = none ∧
      box.handleEvent (.input "-") m = (box, none) := by
  intro m text box slider typed slid taken
  have hbox : box.Lived := .new .intText ⟨"c"⟩ .detached
  have hslider : slider.Lived := .refresh (.new .intSlider ⟨"c"⟩ .detached) m
  obtain ⟨-, -, -, -, hinverted, -, hdecimal, hagree⟩ := box_and_slider_agree m
  have hclamp : m.attributes.clamp Int64.minValue = 10 := hinverted _ 10 (-10) (by decide) (by decide) (by decide)
  have htext : Text.Denotes text.toList Int64.minValue := by
    rw [String.toList_ofList]
    exact hdecimal Int64.minValue ['\u3000'] ['\n'] (List.all_eq_true.mp (by decide)) (List.all_eq_true.mp (by decide))
  have hdash : ∀ n, ¬Text.Denotes "-".toList n := Text.int64?_trim_eq_none_iff.mp (by decide)
  have henabled : m.attributes.get? "disabled" ≠ some (.ofBool true) := by decide
  have hother : ¬m.attributes.StandsAt 10 := fun h => absurd (Attributes.standsAt_iff.mp h) (by decide)
  obtain ⟨hnumber, hrest⟩ := hagree box slider hbox hslider rfl rfl
  obtain ⟨hsame, -, hasks, htaken, -⟩ := hnumber Int64.minValue text htext
  rw [hclamp] at hasks htaken
  obtain ⟨hslid, hshown, hset⟩ := hasks henabled
  exact ⟨hsame.trans (hslid hother), hsame.symm, hshown, hset, htaken, hrest "-" hdash⟩

end View

end WidgetSync
