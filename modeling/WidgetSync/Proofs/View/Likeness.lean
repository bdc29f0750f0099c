import WidgetSync.Proofs.View.Layers

/-! How far two views of one kind on one model are alike. What is drawn is the same, and so are the styles that the
model has now. What may differ comes from before: styles that the model no longer has, the visibility of the time when
it had one, and what the styles of active buttons were for when the user clicked one. -/
namespace WidgetSync

namespace Element

/-- An element without inline styles, shown. -/
def unstyled (e : Element) : Element := e.bare.modifyFace (·.setHidden false)

/-- Elements that are alike without their styles have the same parts. -/
theorem isSome_stylesAt? {e e' : Element} (h : e.unstyled = e'.unstyled) (path : List Nat) :
    (e.stylesAt? path).isSome = (e'.stylesAt? path).isSome := by
  have hparts (x : Element) : (x.stylesAt? path).isSome = (x.unstyled.stylesAt? path).isSome := by
    have hkeeps : ∀ f : Face, (f.setHidden false).styles = f.styles := fun _ => rfl
    rw [unstyled, stylesAt?_modifyFace hkeeps, stylesAt?, stylesAt?, faceAt?_bare, Option.isSome_map,
      Option.isSome_map, Option.isSome_map]
  rw [hparts e, h, ← hparts e']

end Element

/-- What an earlier state of a model overrides, the model overrides too: each property of a selector, and whether it is
visible. -/
structure Model.Supersedes (model earlier : Model) : Prop where
  css : ∀ selector property, earlier.css.Sets selector property → model.css.Sets selector property
  visible : model.attributes.getBool? "visible" = none → earlier.attributes.getBool? "visible" = none

namespace View

variable {v : View} {model model' : Model} {acted : Prop}

theorem Shows.unstyled {a : Attributes} (h : v.Shows a) :
    v.element.unstyled = (v.kind.sketch a v.kind.layout).modifyFace (·.setHidden false) := by
  rw [Element.unstyled, h]
  rfl

theorem Shows.isHidden {a : Attributes} (h : v.Shows a) : v.element.face.isHidden = !v.isVisible := by
  have hbare : v.element.face.isHidden = v.element.bare.face.isHidden := by rw [Element.face_bare]; rfl
  rw [hbare, h]
  rfl

/-! ### Reactions -/

theorem handleEvent_styles (v : View) (event : UiEvent) (model : Model) :
    (v.handleEvent event model).1.isVisible = v.isVisible ∧
      (v.handleEvent event model).1.styleTarget = v.styleTarget ∧
      ∀ path, (v.handleEvent event model).1.element.stylesAt? path = v.element.stylesAt? path := by
  rw [handleEvent]
  split
  · exact ⟨rfl, rfl, fun _ => rfl⟩
  · exact ⟨rfl, rfl, ViewKind.stylesAt?_react model.attributes v.element v.kind event⟩

/-- A view that sets the value of its model is no progress view, and if it is a toggle button then it was clicked. -/
theorem after_handleEvent (v : View) (event : UiEvent) (model : Model) :
    after model.attributes (v.handleEvent event model).2 = model.attributes ∨
      v.kind ≠ .progress ∧ (v.kind = .toggleButton → event = .click) ∧
        ∃ value, after model.attributes (v.handleEvent event model).2 = model.attributes.withValue value := by
  rw [handleEvent]
  split
  · exact .inl rfl
  · rcases ViewKind.react_cases model.attributes v.element v.kind event with ⟨value, htyped, hasked⟩ | ⟨hnot, _⟩
    · refine .inr ⟨?_, ?_, value, by rw [hasked]; rfl⟩
      · intro hk
        rw [hk] at htyped
        cases event <;> contradiction
      · intro hk
        rw [hk] at htyped
        cases event with
        | click => rfl
        | _ => contradiction
    · left
      cases hasked : (v.kind.react model.attributes v.element event).2 with
      | none => rfl
      | some asked =>
        cases asked with
        | sync changes => exact absurd hasked (hnot changes)
        | custom content => rfl

/-! ### Present styles -/

/-- A view has what its model says of visibility and styles, but for the styles of active buttons if the user acted. -/
structure Tended (acted : Prop) (v : View) (model : Model) : Prop where
  styleTarget : v.styleTarget = v.kind.styleTarget?
  visible : ∀ visible, model.attributes.getBool? "visible" = some visible → v.isVisible = visible
  styled : ∀ path styles property value, v.element.stylesAt? path = some styles →
    (v.kind = .toggleButton → acted → ¬model.css.MarksActive property) →
    (v.kind.layer model.attributes model.css path).get? property = some value → styles.get? property = some value

theorem Tended.mono {acted' : Prop} (h : v.Tended acted model) (hacted : acted → acted') : v.Tended acted' model where
  styleTarget := h.styleTarget
  visible := h.visible
  styled := fun path styles property value hs hplain =>
    h.styled path styles property value hs fun hk ha => hplain hk (hacted ha)

theorem tended_refresh (h : v.Ready) (ht : v.styleTarget = v.kind.styleTarget?) (acted : Prop) (model : Model) :
    (v.refresh model).Tended acted model where
  styleTarget := by
    rw [styleTarget_refresh, kind_refresh, ht]
  visible := by
    intro visible hv
    rw [isVisible_refresh, hv, Option.getD_some]
  styled := by
    intro path styles property value hstyles _ hvalue
    rw [h.stylesAt?_refresh ht] at hstyles
    obtain ⟨before, _, rfl⟩ := Option.map_eq_some_iff.mp hstyles
    rw [kind_refresh] at hvalue
    rw [OrdMap.get?_merge, hvalue]
    rfl

theorem new_styleTarget (kind : ViewKind) (comm : CommId) (group : GroupKey) :
    (new kind comm group).styleTarget = (new kind comm group).kind.styleTarget? := by
  cases kind <;> rfl

theorem Tended.handleEvent (h : v.Tended acted model) {event : UiEvent} (hclick : event = .click → acted)
    (ha : model'.attributes = after model.attributes (v.handleEvent event model).2) (hc : model'.css = model.css) :
    (v.handleEvent event model).1.Tended acted model' := by
  have hkind := v.kind_handleEvent event model
  obtain ⟨hvisible, htarget, hstyles⟩ := v.handleEvent_styles event model
  refine ⟨?_, fun visible hv => ?_, fun path styles property value hs hplain hvalue => ?_⟩
  · rw [htarget, hkind, h.styleTarget]
  · rw [hvisible]
    apply h.visible
    rw [← hv, ha]
    rcases v.after_handleEvent event model with he | ⟨_, _, changed, he⟩
    · rw [he]
    · rw [he, Attributes.getBool?_withValue_of_ne (by decide)]
  · rw [hkind] at hplain hvalue
    rw [hc] at hplain hvalue
    rw [hstyles path] at hs
    apply h.styled path styles property value hs hplain
    -- The view keeps its styles while the value changes, so the layer has to be the same for the new value.
    rw [← hvalue, ha]
    rcases v.after_handleEvent event model with he | ⟨hprogress, htoggle, changed, he⟩
    · rw [he]
    · exact ViewKind.get?_layer_congr hprogress (fun hk => hplain hk (hclick (htoggle hk))) _ _ path

/-- A view has every style that a view of its kind has that is displayed now; if it is a toggle button that was clicked,
those apart that are set for active buttons. -/
def UpToDate (clicked : Prop) (v : View) (model : Model) : Prop :=
  ∀ path property value, ((new v.kind v.model v.group).refresh model).element.HasStyle path property value →
    (v.kind = .toggleButton → clicked → ¬model.css.MarksActive property) → v.element.HasStyle path property value

theorem Tended.upToDate (h : v.Tended acted model) (hshows : v.Shows model.attributes) : v.UpToDate acted model := by
  intro path property value hp hplain
  let portrait := (new v.kind v.model v.group).refresh model
  obtain ⟨styles, hs, hvalue⟩ := hp
  have hlike : v.element.unstyled = portrait.element.unstyled := by
    have hportrait : portrait.Shows model.attributes := (new_ready v.kind v.model v.group).refresh model
    have hkind : portrait.kind = v.kind := (new v.kind v.model v.group).kind_refresh model
    rw [hshows.unstyled, hportrait.unstyled, hkind]
  have hpart : (v.element.stylesAt? path).isSome = true := by
    rw [Element.isSome_stylesAt? hlike, hs]
    rfl
  obtain ⟨own, hown⟩ := Option.isSome_iff_exists.mp hpart
  rw [stylesAt?_new_refresh] at hs
  obtain ⟨face, _, rfl⟩ := Option.map_eq_some_iff.mp hs
  exact ⟨own, hown, h.styled path own property value hown hplain hvalue⟩

/-! ### Past styles -/

/-- All that a view has of overrides is of those that its model has at last. -/
structure Pristine (last : Model) (v : View) : Prop where
  visible : last.attributes.getBool? "visible" = none → v.isVisible = true
  styled : ∀ path styles property, v.element.stylesAt? path = some styles → styles.contains property = true →
    (v.kind.layer last.attributes last.css path).contains property = true

variable {last : Model}

theorem Pristine.refresh (h : v.Pristine last) (hready : v.Ready) (ht : v.styleTarget = v.kind.styleTarget?)
    (hl : last.Supersedes model) (hplain : v.kind = .toggleButton → ∀ property, ¬last.css.MarksActive property) :
    (v.refresh model).Pristine last where
  visible := by
    intro hnone
    rw [isVisible_refresh, hl.visible hnone, Option.getD_none]
    exact h.visible hnone
  styled := by
    intro path styles property hstyles hc
    rw [kind_refresh]
    rw [hready.stylesAt?_refresh ht] at hstyles
    obtain ⟨before, hbefore, rfl⟩ := Option.map_eq_some_iff.mp hstyles
    -- What is set was there before, or the refresh has set it for a state that the last one supersedes.
    rcases OrdMap.contains_merge.mp hc with hold | hset
    · exact h.styled path before property hbefore hold
    · have hearlier : v.kind = .toggleButton → ∀ property, ¬model.css.MarksActive property := by
        rintro hk property ⟨selector, hsets, hactive⟩
        exact hplain hk property ⟨selector, hl.css selector property hsets, hactive⟩
      exact ViewKind.contains_layer_mono hl.css hearlier _ _ hset

/-- A new view has nothing of any model. -/
theorem pristine_new (last : Model) (kind : ViewKind) (comm : CommId) (group : GroupKey) :
    (new kind comm group).Pristine last := by
  refine ⟨fun _ => rfl, fun path styles property hs hc => ?_⟩
  have hlayout : (new kind comm group).element = kind.layout.bare := by cases kind <;> rfl
  rw [hlayout, Element.stylesAt?_bare] at hs
  obtain ⟨face, _, rfl⟩ := Option.map_eq_some_iff.mp hs
  rw [OrdMap.contains, OrdMap.get?_emptyCollection] at hc
  contradiction

theorem Pristine.handleEvent (h : v.Pristine last) (event : UiEvent) (model : Model) :
    (v.handleEvent event model).1.Pristine last := by
  obtain ⟨hvisible, _, hstyles⟩ := v.handleEvent_styles event model
  refine ⟨fun hnone => hvisible.trans (h.visible hnone), fun path styles property hs hc => ?_⟩
  rw [hstyles path] at hs
  rw [kind_handleEvent]
  exact h.styled path styles property hs hc

/-- A view that has the styles of its model and no others has the layer of its model on each part. -/
theorem Pristine.stylesAt? (h : v.Pristine model) (ht : v.Tended acted model)
    (hplain : v.kind = .toggleButton → ∀ property, ¬model.css.MarksActive property) {path : List Nat}
    {styles : OrdMap String String} (hs : v.element.stylesAt? path = some styles) :
    styles = v.kind.layer model.attributes model.css path := by
  refine OrdMap.ext fun property => ?_
  cases hl : (v.kind.layer model.attributes model.css path).get? property with
  | some value => exact ht.styled path styles property value hs (fun hk _ => hplain hk property) hl
  | none =>
    cases hp : styles.get? property with
    | none => rfl
    | some value =>
      have hc := h.styled path styles property hs (OrdMap.contains_iff.mpr ⟨value, hp⟩)
      rw [OrdMap.contains, hl] at hc
      contradiction

end View

end WidgetSync
