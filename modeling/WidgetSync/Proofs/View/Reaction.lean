import WidgetSync.Proofs.View.Sketch

/-! What a view draws when the user acts on it. It is not drawn anew then, and yet it shows what a model with the new
value would look like, whether its own model gets that value or has it already. -/
namespace WidgetSync

/-- The attributes with the value that is on show, if that is another one. -/
def Attributes.showing (a : Attributes) (value : Option Value) : Attributes := value.elim a a.withValue

namespace ViewKind

open Face

/-- The value that a view puts on show when the user acts on it. -/
def typed (a : Attributes) : ViewKind → UiEvent → Option Value
  | .checkbox, .click => some (.ofBool !a.boolValue)
  | .toggleButton, .click => some (.ofBool !a.boolValue)
  | .intText, .input text => (Text.int64? (Text.trim text.toList)).map fun n => .ofInt64 (a.clamp n)
  | .intSlider, .slide n => some (.ofInt64 (a.clamp n))
  | _, _ => none

section Redraw

variable (b : Attributes)

theorem caption_withValue (value : Value) (f : Face) : caption (b.withValue value) f = caption b f := by
  simp only [caption, Attributes.description_withValue]

/-- To show another value is to draw the model that has it. -/
theorem drawChecked_sketch (checked : Bool) : drawChecked checked (sketch b (layout .checkbox) .checkbox) =
    sketch (b.withValue (.ofBool checked)) (layout .checkbox) .checkbox := by
  have hm : ((control .checkbox).putAll (marks b .checkbox)).setFlag "checked" checked =
      (control .checkbox).putAll (marks (b.withValue (.ofBool checked)) .checkbox) := by
    simp only [setFlag_eq, marks, Attributes.isDisabled_withValue, Attributes.boolValue_withValue]
    exact put_put_self _ _ _ _
  rw [layout_checkbox, sketch_checkbox, sketch_checkbox, ← hm, caption_withValue]
  rfl

theorem drawActive_sketch (active : Bool) :
    drawActive active (sketch b (layout .toggleButton) .toggleButton) =
      sketch (b.withValue (.ofBool active)) (layout .toggleButton) .toggleButton := by
  have hm : marks (b.withValue (.ofBool active)) .toggleButton = marks b .toggleButton := by
    simp only [marks, Attributes.isDisabled_withValue]
  have hnew : (((control .toggleButton).setHtml b.description).putAll
      (marks b .toggleButton)).hasClass "active" = false := rfl
  rw [layout_toggleButton, sketch_toggleButton, sketch_toggleButton, hm, Attributes.description_withValue,
    Attributes.boolValue_withValue, ← toggleClass_toggleClass hnew b.boolValue active]
  rfl

theorem drawText_sketch (n : Int64) : drawText n (sketch b (layout .intText) .intText) =
    sketch (b.withValue (.ofInt64 n)) (layout .intText) .intText := by
  have hm : ((control .intText).putAll (marks b .intText)).setAttribute "value" (decimalText n) =
      (control .intText).putAll (marks (b.withValue (.ofInt64 n)) .intText) := by
    simp only [marks, Attributes.isDisabled_withValue, Attributes.intValue_withValue]
    exact put_put_self _ _ _ (some (decimalText n))
  rw [layout_intText, sketch_intText, sketch_intText, ← hm, caption_withValue]
  rfl

theorem drawSlider_sketch (n : Int64) : drawSlider n (sketch b (layout .intSlider) .intSlider) =
    sketch (b.withValue (.ofInt64 n)) (layout .intSlider) .intSlider := by
  have hm : ((control .intSlider).putAll (marks b .intSlider)).setAttribute "value" (decimalText n) =
      (control .intSlider).putAll (marks (b.withValue (.ofInt64 n)) .intSlider) := by
    simp only [marks, Attributes.isDisabled_withValue, Attributes.intValue_withValue, ne_eq,
      String.reduceEq, not_false_eq_true, Attributes.getInt?_withValue_of_ne,
      Attributes.getString?_withValue_of_ne]
    exact put_put_self _ _ _ (some (decimalText n))
  have hr (f : Face) : (readout b f).setHtml (decimalText n) = readout (b.withValue (.ofInt64 n)) f := by
    simp only [readout, Attributes.intValue_withValue, ne_eq, String.reduceEq, not_false_eq_true,
      Attributes.getBool?_withValue_of_ne]
    rfl
  rw [layout_intSlider, sketch_intSlider, sketch_intSlider, ← hm, ← hr, caption_withValue]
  rfl

/-- To show the value that a model has changes nothing. -/
theorem sketch_intText_same : sketch (b.withValue (.ofInt64 b.intValue)) (layout .intText) .intText =
    sketch b (layout .intText) .intText := by
  have hm : marks (b.withValue (.ofInt64 b.intValue)) .intText = marks b .intText := by
    simp only [marks, Attributes.isDisabled_withValue, Attributes.intValue_withValue]
  rw [layout_intText, sketch_intText, sketch_intText, hm, caption_withValue]

theorem sketch_intSlider_same :
    sketch (b.withValue (.ofInt64 b.intValue)) (layout .intSlider) .intSlider =
      sketch b (layout .intSlider) .intSlider := by
  have hm : marks (b.withValue (.ofInt64 b.intValue)) .intSlider = marks b .intSlider := by
    simp [marks]
  have hr (f : Face) : readout (b.withValue (.ofInt64 b.intValue)) f = readout b f := by
    simp [readout]
  rw [layout_intSlider, sketch_intSlider, sketch_intSlider, hm, hr, caption_withValue]

end Redraw

/-- A reaction draws the value that the user put on show. -/
theorem bare_react {e : Element} {b : Attributes} {kind : ViewKind} {isHidden : Bool}
    (h : e.bare = (kind.sketch b kind.layout).modifyFace (·.setHidden isHidden)) (a : Attributes)
    (event : UiEvent) : (kind.react a e event).1.bare =
      (kind.sketch (b.showing (kind.typed a event)) kind.layout).modifyFace (·.setHidden isHidden) := by
  have hroot (e : Element) (index : Nat) (f : Face → Face) :
      onChild (e.modifyFace (·.setHidden isHidden)) index f =
        (onChild e index f).modifyFace (·.setHidden isHidden) := rfl
  cases kind with
  | checkbox =>
    cases event with
    | click =>
      rw [typed, Attributes.showing, Option.elim_some, ← drawChecked_sketch, react, drawChecked,
        Element.bare_onChild (styleBlind_setFlag _ _), h, hroot, drawChecked]
    | _ => exact h
  | toggleButton =>
    cases event with
    | click =>
      rw [typed, Attributes.showing, Option.elim_some, ← drawActive_sketch, react, drawActive,
        Element.bare_onChild (styleBlind_toggleClass _ _), h, hroot, drawActive]
    | _ => exact h
  | intText =>
    cases event with
    | input text =>
      rw [typed, react]
      cases Text.int64? (Text.trim text.toList) with
      | none => exact h
      | some n =>
        show (drawText (a.clamp n) e).bare = _
        rw [Option.map_some, Attributes.showing, Option.elim_some, ← drawText_sketch, drawText,
          Element.bare_onChild (styleBlind_setAttribute _ _), h, hroot, drawText]
    | _ => exact h
  | intSlider =>
    cases event with
    | slide n =>
      rw [typed, Attributes.showing, Option.elim_some, ← drawSlider_sketch, react, drawSlider,
        Element.bare_onChild (styleBlind_setHtml _), Element.bare_onChild (styleBlind_setAttribute _ _), h,
        hroot, hroot, drawSlider]
    | _ => exact h
  | _ => cases event <;> exact h

/-- What a view asks for is to set the value that it shows, or nothing if the model has that value already. -/
theorem react_cases (a : Attributes) (e : Element) (kind : ViewKind) (event : UiEvent) :
    (∃ value, kind.typed a event = some value ∧ (kind.react a e event).2 = some (.setValue value)) ∨
    ((∀ changes, (kind.react a e event).2 ≠ some (.sync changes)) ∧
      kind.sketch (a.showing (kind.typed a event)) kind.layout = kind.sketch a kind.layout) := by
  -- A number that is proposed is the value already, or it is what the view asks for.
  have hproposed (n : Int64) : a.clamp n = a.intValue ∧ a.propose n = none ∨
      a.propose n = some (.setValue (.ofInt64 (a.clamp n))) := by
    rw [Attributes.propose]
    split
    · next hn => exact .inl ⟨hn, rfl⟩
    · exact .inr rfl
  cases kind with
  | checkbox =>
    cases event with
    | click => exact .inl ⟨_, rfl, rfl⟩
    | _ => exact .inr ⟨nofun, rfl⟩
  | toggleButton =>
    cases event with
    | click => exact .inl ⟨_, rfl, rfl⟩
    | _ => exact .inr ⟨nofun, rfl⟩
  | intText =>
    cases event with
    | input text =>
      rw [typed, react]
      cases Text.int64? (Text.trim text.toList) with
      | none => exact .inr ⟨nofun, rfl⟩
      | some n =>
        rcases hproposed n with ⟨hn, hnone⟩ | hsome
        · simp only [hnone, Option.map_some, hn]
          exact .inr ⟨nofun, sketch_intText_same a⟩
        · exact .inl ⟨_, rfl, hsome⟩
    | _ => exact .inr ⟨nofun, rfl⟩
  | intSlider =>
    cases event with
    | slide n =>
      rw [typed, react]
      rcases hproposed n with ⟨hn, hnone⟩ | hsome
      · simp only [hnone, hn]
        exact .inr ⟨nofun, sketch_intSlider_same a⟩
      · exact .inl ⟨_, rfl, hsome⟩
    | _ => exact .inr ⟨nofun, rfl⟩
  | _ => cases event <;> exact .inr ⟨nofun, rfl⟩

end ViewKind

namespace View

variable {v : View} {b : Attributes}

theorem Shows.handleEvent (h : v.Shows b) (event : UiEvent) (m : Model) :
    ∃ b', (v.handleEvent event m).1.Shows b' := by
  rw [View.handleEvent]
  split
  · exact ⟨b, h⟩
  · exact ⟨_, ViewKind.bare_react h m.attributes event⟩

theorem kind_handleEvent (v : View) (event : UiEvent) (m : Model) : (v.handleEvent event m).1.kind = v.kind := by
  rw [View.handleEvent]
  split <;> rfl

/-- The attributes of a model after it has been asked what a view asks for. -/
def after (a : Attributes) : Option Interaction → Attributes
  | some (.sync changes) => a.merge changes
  | some (.custom _) => a
  | none => a

/-- A view that shows its model shows it as it will be after it has been asked what the view asks for. -/
theorem Shows.handleEvent_after {m : Model} (h : v.Shows m.attributes) (event : UiEvent) :
    (v.handleEvent event m).1.Shows (after m.attributes (v.handleEvent event m).2) := by
  rw [View.handleEvent]
  split
  · exact h
  · have hreact := ViewKind.bare_react h m.attributes event
    rcases ViewKind.react_cases m.attributes v.element v.kind event with ⟨value, ht, hi⟩ | ⟨hi, hs⟩
    · rw [ht] at hreact
      rw [hi]
      exact hreact
    · -- Nothing is set, and what is drawn is what was drawn already.
      rw [hs] at hreact
      cases hasked : (v.kind.react m.attributes v.element event).2 with
      | none => exact hreact
      | some asked =>
        cases asked with
        | sync changes => exact absurd hasked (hi changes)
        | custom content => exact hreact

end View

end WidgetSync
