import WidgetSync.Proofs.View.Layers

/-! To draw a model a second time changes nothing. Every kind draws each part of its element once, as the model tells
and whatever was there before; and the styles that go over what is drawn are those that are there already. -/
namespace WidgetSync

namespace Face

theorem putAll_self (f : Face) (marks : List (String × Option String)) :
    (f.putAll marks).putAll marks = f.putAll marks := putAll_putAll fun _ hk => hk

/-- A class may have been there before; toggled twice it is as if toggled once. -/
theorem toggleClass_self (f : Face) (name : String) (on : Bool) :
    (f.toggleClass name on).toggleClass name on = f.toggleClass name on := by
  cases on with
  | false =>
    simp only [toggleClass, Bool.false_eq_true, if_false, removeClass, List.filter_filter, Bool.and_self]
  | true =>
    cases hc : f.hasClass name with
    | true =>
      have hadd : f.toggleClass name true = f := if_pos hc
      rw [hadd, hadd]
    | false => exact toggleClass_toggleClass hc true true

end Face

namespace ViewKind

open Face

/-! ### Parts -/

section OnChild

variable {e : Element} {index other : Nat} {f g : Face → Face}

theorem onChild_onChild (e : Element) (index : Nat) (f g : Face → Face) :
    onChild (onChild e index f) index g = onChild e index fun x => g (f x) := by
  simp only [onChild, Element.modifyChild, Element.children_node, List.modify_modify_eq]
  rfl

theorem onChild_comm (h : index ≠ other) :
    onChild (onChild e index f) other g = onChild (onChild e other g) index f := by
  simp only [onChild, Element.modifyChild, Element.children_node]
  exact congrArg (Element.node e.face) (List.modify_modify_ne _ _ _ h)

end OnChild

/-- Changes children one after the other, each in a way of its own. -/
def onParts (parts : List (Nat × (Face → Face))) (e : Element) : Element :=
  parts.foldl (fun e part => onChild e part.1 part.2) e

section OnParts

variable {parts : List (Nat × (Face → Face))}

theorem onParts_onChild {index : Nat} (h : index ∉ parts.map Prod.fst) (f : Face → Face) (e : Element) :
    onParts parts (onChild e index f) = onChild (onParts parts e) index f := by
  induction parts generalizing e with
  | nil => rfl
  | cons part rest ih =>
    rw [List.map_cons, List.mem_cons, not_or] at h
    obtain ⟨hne, hrest⟩ := h
    show onParts rest (onChild (onChild e index f) part.1 part.2) = _
    rw [onChild_comm hne, ih hrest]
    rfl

/-- Changes of different children do not meet, so that doing all of them twice is doing each of them twice. -/
theorem onParts_onParts (hn : (parts.map Prod.fst).Nodup) (hf : ∀ part ∈ parts, ∀ f, part.2 (part.2 f) = part.2 f)
    (e : Element) : onParts parts (onParts parts e) = onParts parts e := by
  induction parts generalizing e with
  | nil => rfl
  | cons part rest ih =>
    obtain ⟨hpart, hrest⟩ := List.nodup_cons.mp hn
    have htwice : (fun f => part.2 (part.2 f)) = part.2 := funext (hf part List.mem_cons_self)
    calc onParts rest (onChild (onParts rest (onChild e part.1 part.2)) part.1 part.2)
        = onParts rest (onParts rest (onChild (onChild e part.1 part.2) part.1 part.2)) := by
          rw [onParts_onChild hpart part.2 (onChild e part.1 part.2)]
      _ = onParts rest (onParts rest (onChild e part.1 part.2)) := by rw [onChild_onChild, htwice]
      _ = onParts rest (onChild e part.1 part.2) :=
          ih hrest (fun p hp => hf p (List.mem_cons_of_mem part hp)) _

end OnParts

/-! ### What is drawn of them -/

/-- How a kind draws a model, child by child. -/
def parts (a : Attributes) : ViewKind → List (Nat × (Face → Face))
  | .checkbox => [(0, caption a), (1, (·.putAll (marks a .checkbox)))]
  | .toggleButton => [(0, fun f => ((f.setHtml a.description).putAll (marks a .toggleButton)).toggleClass "active"
      a.boolValue)]
  | .intText => [(0, caption a), (1, (·.putAll (marks a .intText)))]
  | .intSlider => [(0, caption a), (1, (·.putAll (marks a .intSlider))), (2, readout a)]
  | .progress => [(0, caption a)]
  | .plain | .button | .container => []

theorem sketch_eq_onParts {kind : ViewKind} (h : kind ≠ .button) (a : Attributes) (e : Element) :
    kind.sketch a e = onParts (kind.parts a) e := by
  cases kind with
  | button => contradiction
  | checkbox =>
    simp only [sketch, draw, drawChecked, onChild_onChild, setFlag_eq]
    rfl
  | toggleButton =>
    simp only [sketch, draw, drawActive, onChild_onChild, setFlag_eq]
    rfl
  | intText =>
    simp only [sketch, draw, drawText, onChild_onChild, setFlag_eq]
    rfl
  | intSlider =>
    -- The slider and the readout are drawn in turns.
    have hturn : (2 : Nat) ≠ 1 := by decide
    simp only [sketch, draw, drawSlider]
    rw [onChild_comm hturn, onChild_onChild, onChild_onChild]
    simp only [drawRange_eq]
    rfl
  | _ => rfl

theorem parts_nodup (a : Attributes) (kind : ViewKind) : ((kind.parts a).map Prod.fst).Nodup := by
  cases kind <;> simp [parts]

theorem parts_idempotent (a : Attributes) (kind : ViewKind) :
    ∀ part ∈ kind.parts a, ∀ f, part.2 (part.2 f) = part.2 f := by
  cases kind with
  | toggleButton =>
    simp only [parts, List.forall_mem_singleton]
    intro f
    simp only [setHtml_toggleClass, setHtml_putAll, putAll_toggleClass, putAll_self, toggleClass_self]
    rfl
  | _ => simp [parts, putAll_self, caption, readout, setHtml, setHidden]

/-- To draw a model into any element once more changes nothing. -/
theorem sketch_self (a : Attributes) (e : Element) (kind : ViewKind) :
    kind.sketch a (kind.sketch a e) = kind.sketch a e := by
  by_cases h : kind = .button
  · subst h
    cases e with
    | node face children =>
      simp only [sketch_button, setHtml_putAll, putAll_self]
      rfl
  · rw [sketch_eq_onParts h, sketch_eq_onParts h]
    exact onParts_onParts (parts_nodup a kind) (parts_idempotent a kind) e

end ViewKind

namespace View

variable {v : View} {m : Model}

theorem bare_refresh (v : View) (m : Model) : ∃ isHidden, (v.refresh m).element.bare =
    (v.kind.sketch m.attributes v.element.bare).modifyFace (·.setHidden isHidden) := by
  let drawn : View := { v with element := v.kind.draw m.attributes v.element }
  have hdrawn : drawn.element.bare = v.kind.sketch m.attributes v.element.bare := v.kind.bare_draw _ v.element
  rw [← hdrawn]
  exact drawn.bare_follow m

theorem sketch_bare_refresh (v : View) (m : Model) :
    v.kind.sketch m.attributes (v.refresh m).element.bare = (v.refresh m).element.bare := by
  obtain ⟨isHidden, hbare⟩ := v.bare_refresh m
  rw [hbare, ViewKind.sketch_setHidden, ViewKind.sketch_self]

/-- Whom the selectors reach is the same after a refresh. -/
theorem overlay_refresh (v : View) (m : Model) (path : List Nat) :
    (v.refresh m).overlay m path = v.overlay m path := by
  obtain ⟨isHidden, hbare⟩ := v.bare_refresh m
  rw [overlay, overlay, kind_refresh, styleTarget_refresh, sketch_bare_refresh, hbare, reaches_modifyFace]

theorem followVisibility_of_isVisible {a : Attributes}
    (h : ∀ visible, a.getBool? "visible" = some visible → v.isVisible = visible) : v.followVisibility a = v := by
  rw [followVisibility]
  split
  · rfl
  · next visible hv => exact if_pos (h visible hv).symm

/-- A view that has the visibility of its model is drawn and styled, and neither shown nor hidden. -/
theorem refresh_of_isVisible
    (h : ∀ visible, m.attributes.getBool? "visible" = some visible → v.isVisible = visible) :
    v.refresh m = ({ v with element := v.kind.draw m.attributes v.element } : View).followStyles m.css := by
  let drawn : View := { v with element := v.kind.draw m.attributes v.element }
  have hdrawn : drawn.followVisibility m.attributes = drawn := followVisibility_of_isVisible h
  exact congrArg (·.followStyles m.css) hdrawn

/-- A second refresh of any view from the same model changes nothing. -/
theorem refresh_refresh (v : View) (m : Model) : (v.refresh m).refresh m = v.refresh m := by
  have hvisible : ∀ visible, m.attributes.getBool? "visible" = some visible → (v.refresh m).isVisible = visible := by
    intro visible hv
    rw [isVisible_refresh, hv, Option.getD_some]
  have hagain := refresh_of_isVisible hvisible
  have hbare : ((v.refresh m).refresh m).element.bare = (v.refresh m).element.bare := by
    rw [hagain, bare_followStyles, ViewKind.bare_draw, kind_refresh, sketch_bare_refresh]
  have hstyles : ∀ path styles styles', ((v.refresh m).refresh m).element.stylesAt? path = some styles →
      (v.refresh m).element.stylesAt? path = some styles' → styles = styles' := by
    intro path styles styles' hs hs'
    -- The same overlay comes on top of itself.
    rw [stylesAt?_refresh, overlay_refresh, hs', Option.map_some, Option.some.injEq] at hs
    rw [stylesAt?_refresh] at hs'
    obtain ⟨before, _, rfl⟩ := Option.map_eq_some_iff.mp hs'
    rw [← hs, OrdMap.merge_assoc, OrdMap.merge_self]
  have helement : ((v.refresh m).refresh m).element = (v.refresh m).element := Element.ext_of_bare hbare hstyles
  -- The rest of the view is not touched when it has its visibility already.
  calc (v.refresh m).refresh m = { v.refresh m with element := ((v.refresh m).refresh m).element } := by
        rw [hagain]
        rfl
    _ = v.refresh m := by rw [helement]

end View

end WidgetSync
