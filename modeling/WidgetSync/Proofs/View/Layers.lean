import WidgetSync.Proofs.Element.Styles
import WidgetSync.Proofs.View.Reaction

/-! The styles that a view puts on its parts. Every refresh puts one more layer over the styles that are there, which
is a matter of the model alone, and takes none off: what a layer sets is set as it says, and what else there is comes
from layers below. -/
namespace WidgetSync

/-! ### Selectors -/

namespace Face

/-- What a selector reads of a face. -/
def frame (f : Face) : Face := { Face.new f.tag with classes := f.classes }

theorem frame_put (f : Face) (name : String) (value : Option String) : (f.put name value).frame = f.frame := rfl

theorem frame_putAll (f : Face) (marks : List (String × Option String)) : (f.putAll marks).frame = f.frame := by
  induction marks generalizing f with
  | nil => rfl
  | cons mark rest ih => exact (ih _).trans (f.frame_put mark.1 mark.2)

end Face

namespace Selector

variable {s : Selector}

theorem selects_frame (f : Face) : s.selects f.frame = s.selects f := rfl

/-- A class that a selector does not name makes no difference to it. -/
theorem selects_removeClass {name : String} (h : name ∉ s.classes) (f : Face) :
    s.selects (f.removeClass name) = s.selects f := by
  have hclasses : s.classes.all (f.removeClass name).hasClass = s.classes.all f.hasClass := by
    rw [Bool.eq_iff_iff, List.all_eq_true, List.all_eq_true]
    refine forall₂_congr fun c hc => ?_
    have hne : c ≠ name := fun he => h (he ▸ hc)
    simp [Face.hasClass, Face.removeClass, hne]
  rw [selects, selects, hclasses]
  rfl

end Selector

namespace View

/-- Whether the styles of a selector are for the part at the end of a path. -/
def reaches (styleTarget : Option String) (e : Element) (path : List Nat) (selector : String) : Bool :=
  if selector ≠ "" then (Selector.ofString selector).reaches e path
  else styleTarget.elim (path = []) fun target => (Selector.ofString target).reaches e path

variable (styleTarget : Option String) {e e' : Element}

theorem reaches_congr {path : List Nat} {selector : String}
    (h : ∀ text, text = selector ∨ styleTarget = some text →
      (Selector.ofString text).reaches e path = (Selector.ofString text).reaches e' path) :
    reaches styleTarget e path selector = reaches styleTarget e' path selector := by
  rw [reaches, reaches, h selector (.inl rfl)]
  cases styleTarget with
  | none => rfl
  | some target => rw [Option.elim_some, Option.elim_some, h target (.inr rfl)]

theorem reaches_bare (e : Element) (path : List Nat) :
    reaches styleTarget e.bare path = reaches styleTarget e path := by
  funext selector
  exact reaches_congr styleTarget fun text _ => Selector.reaches_bare _ e path

theorem reaches_modifyFace (e : Element) (f : Face → Face) (path : List Nat) :
    reaches styleTarget (e.modifyFace f) path = reaches styleTarget e path := by
  funext selector
  exact reaches_congr styleTarget fun text _ => Selector.reaches_modifyFace _ e f path

theorem stylesAt?_applyStyles (e : Element) (selector : String) (properties : OrdMap String Value)
    (path : List Nat) : (applyStyles styleTarget e selector properties).stylesAt? path =
      (e.stylesAt? path).map fun styles =>
        if reaches styleTarget e path selector then overrideStyles properties styles else styles := by
  simp only [applyStyles, reaches]
  split
  · exact e.stylesAt?_restyleMatches selector _ path
  · cases styleTarget with
    | some target => exact e.stylesAt?_restyleMatches target _ path
    | none =>
      cases path with
      | nil => rfl
      | cons index path =>
        rw [Element.stylesAt?, Element.stylesAt?, Element.faceAt?_cons, Element.faceAt?_cons]
        simp [Element.modifyFace, Element.children_node]

end View

/-! ### Layers -/

namespace Css

/-- The styles of a part after every selector that reaches it has overwritten some. -/
def dress (reached : String → Bool) (overrides : List (String × OrdMap String Value))
    (styles : OrdMap String String) : OrdMap String String :=
  overrides.foldl (fun styles p => if reached p.1 then View.overrideStyles p.2 styles else styles) styles

variable {reached reached' : String → Bool} {property : String}

theorem dress_cons (reached : String → Bool) (p : String × OrdMap String Value)
    (rest : List (String × OrdMap String Value)) (styles : OrdMap String String) :
    dress reached (p :: rest) styles =
      dress reached rest (if reached p.1 then View.overrideStyles p.2 styles else styles) := rfl

theorem get?_overrideStyles (properties : OrdMap String Value) (styles : OrdMap String String) :
    (View.overrideStyles properties styles).get? property =
      ((properties.get? property).map text).or (styles.get? property) := by
  rw [View.overrideStyles, OrdMap.get?_merge, OrdMap.get?_mapValues, Option.orElse_eq_orElse, Option.orElse_eq_or]

/-- Whatever the styles were, they are overwritten with the same ones. -/
theorem dress_eq_merge (reached : String → Bool) (overrides : List (String × OrdMap String Value))
    (styles : OrdMap String String) : dress reached overrides styles = styles.merge (dress reached overrides ∅) := by
  induction overrides generalizing styles with
  | nil => rfl
  | cons p rest ih =>
    let first (styles : OrdMap String String) := if reached p.1 then View.overrideStyles p.2 styles else styles
    have hfirst : first styles = styles.merge (first ∅) := by
      simp only [first]
      split
      · rw [View.overrideStyles, View.overrideStyles, OrdMap.empty_merge]
      · rfl
    calc dress reached (p :: rest) styles = (first styles).merge (dress reached rest ∅) := ih (first styles)
      _ = styles.merge ((first ∅).merge (dress reached rest ∅)) := by rw [hfirst, OrdMap.merge_assoc]
      _ = styles.merge (dress reached (p :: rest) ∅) := by rw [← ih (first ∅)]; rfl

/-- Selectors that do not set a property make no difference to it. -/
theorem get?_dress_congr {overrides : List (String × OrdMap String Value)} {styles styles' : OrdMap String String}
    (h : ∀ p ∈ overrides, p.2.contains property = true → reached p.1 = reached' p.1)
    (hs : styles.get? property = styles'.get? property) :
    (dress reached overrides styles).get? property = (dress reached' overrides styles').get? property := by
  induction overrides generalizing styles styles' with
  | nil => exact hs
  | cons p rest ih =>
    rw [dress_cons, dress_cons]
    refine ih (fun q hq => h q (List.mem_cons_of_mem p hq)) ?_
    have hother (hp : p.2.contains property = false) (reaching : Bool) (styles : OrdMap String String) :
        (if reaching then View.overrideStyles p.2 styles else styles).get? property = styles.get? property := by
      cases reaching with
      | false => rfl
      | true =>
        rw [if_pos rfl, get?_overrideStyles, OrdMap.contains_eq_false_iff.mp hp, Option.map_none, Option.none_or]
    cases hp : p.2.contains property with
    | false => rw [hother hp, hother hp, hs]
    | true =>
      rw [h p List.mem_cons_self hp]
      split
      · rw [get?_overrideStyles, get?_overrideStyles, hs]
      · exact hs

/-- What is set on a part was set before, or a selector sets it that reaches the part. -/
theorem contains_dress {overrides : List (String × OrdMap String Value)} {styles : OrdMap String String} :
    (dress reached overrides styles).contains property = true ↔ styles.contains property = true ∨
      ∃ p ∈ overrides, reached p.1 = true ∧ p.2.contains property = true := by
  induction overrides generalizing styles with
  | nil => simp [dress]
  | cons p rest ih =>
    have hfirst : (if reached p.1 then View.overrideStyles p.2 styles else styles).contains property = true ↔
        styles.contains property = true ∨ reached p.1 = true ∧ p.2.contains property = true := by
      split
      · next hr => simp [OrdMap.contains, get?_overrideStyles, hr, or_comm]
      · next hr => simp [hr]
    rw [dress_cons, ih, hfirst, List.exists_mem_cons_iff, or_assoc]

end Css

theorem View.stylesAt?_followStyles (v : View) (css : Css) (path : List Nat) :
    (v.followStyles css).element.stylesAt? path = (v.element.stylesAt? path).map
      (Css.dress (reaches v.styleTarget v.element path) css.entries) := by
  rw [followStyles]
  generalize v.element = e
  -- Whom a selector reaches does not depend on styles, so it is the same before and after each of them.
  induction css.entries generalizing e with
  | nil => exact Option.map_id'.symm
  | cons p rest ih =>
    have hreaches : reaches v.styleTarget (applyStyles v.styleTarget e p.1 p.2) path =
        reaches v.styleTarget e path := by
      rw [← reaches_bare, bare_applyStyles, reaches_bare]
    rw [List.foldl_cons]
    show (List.foldl _ (applyStyles v.styleTarget e p.1 p.2) rest).stylesAt? path = _
    rw [ih, hreaches, stylesAt?_applyStyles, Option.map_map]
    rfl

/-! ### Drawing -/

namespace Face

/-- A change that leaves styles as they are. -/
def KeepsStyles (f : Face → Face) : Prop := ∀ x, (f x).styles = x.styles

theorem KeepsStyles.comp {f g : Face → Face} (hg : KeepsStyles g) (hf : KeepsStyles f) :
    KeepsStyles fun x => g (f x) := by
  intro x
  rw [hg, hf]

theorem keepsStyles_setHtml (html : String) : KeepsStyles (·.setHtml html) := fun _ => rfl

theorem keepsStyles_setHidden (isHidden : Bool) : KeepsStyles (·.setHidden isHidden) := fun _ => rfl

theorem keepsStyles_setAttribute (name value : String) : KeepsStyles (·.setAttribute name value) := fun _ => rfl

theorem keepsStyles_setFlag (name : String) (on : Bool) : KeepsStyles (·.setFlag name on) := by
  intro x
  cases on <;> rfl

theorem keepsStyles_toggleClass (name : String) (on : Bool) : KeepsStyles (·.toggleClass name on) := by
  intro x
  cases on with
  | false => rfl
  | true =>
    simp only [toggleClass, if_true, addClass]
    split <;> rfl

end Face

namespace ViewKind

open Element Face

theorem keepsStyles_drawRange (a : Attributes) : KeepsStyles (drawRange a) := by
  intro f
  simp only [drawRange, List.foldl_cons, List.foldl_nil, drawBound_eq]
  exact keepsStyles_setFlag "disabled" a.isDisabled _

theorem stylesAt?_drawLabel (a : Attributes) (e : Element) (path : List Nat) :
    (drawLabel a e).stylesAt? path = e.stylesAt? path :=
  stylesAt?_onChild ((keepsStyles_setHidden _).comp (keepsStyles_setHtml _)) e 0 path

/-- The bar, and nothing else, gets a width. -/
theorem stylesAt?_bar (e : Element) (width : String) (path : List Nat) :
    (e.modifyChild 1 fun bar => onChild bar 0 (·.setStyle "width" width)).stylesAt? path =
      (e.stylesAt? path).map (·.merge (if path = [1, 0] then .ofList [("width", width)] else ∅)) := by
  by_cases hp : path = [1, 0]
  · subst hp
    simp only [onChild, stylesAt?_cons, modifyChild, children_node, List.getElem?_modify_eq]
    cases e.children[1]? with
    | none => rfl
    | some bar =>
      simp only [Option.map_eq_map, Option.map_some, Option.bind_some, children_node, List.getElem?_modify_eq]
      cases bar.children[0]? <;> rfl
  · have hid : (fun styles : OrdMap String String => styles.merge ∅) = id := rfl
    rw [if_neg hp, hid, Option.map_id_fun, id_eq]
    refine stylesAt?_modifyChild e 1 _ path fun bar below hb => ?_
    refine stylesAt?_modifyChild bar 0 _ below fun part beneath hn => ?_
    cases beneath with
    | nil => exact absurd (hb.trans (congrArg _ hn)) hp
    | cons index rest => rfl

/-- The styles that are drawn: the bar of a progress view is as wide as the model tells. -/
def drawnStyles (a : Attributes) (path : List Nat) : ViewKind → OrdMap String String
  | .progress => if path = [1, 0] then .ofList [("width", percentText a.percent ++ "%")] else ∅
  | _ => ∅

theorem drawnStyles_of_ne {kind : ViewKind} (h : kind ≠ .progress) (a : Attributes) (path : List Nat) :
    kind.drawnStyles a path = ∅ := by
  cases kind <;> first | rfl | contradiction

theorem stylesAt?_draw_of_ne {kind : ViewKind} (h : kind ≠ .progress) (a : Attributes) (e : Element)
    (path : List Nat) : (kind.draw a e).stylesAt? path = e.stylesAt? path := by
  have hdisabled : KeepsStyles (·.setFlag "disabled" a.isDisabled) := keepsStyles_setFlag _ _
  cases kind with
  | plain => rfl
  | container => rfl
  | progress => contradiction
  | button => exact stylesAt?_modifyFace (hdisabled.comp (keepsStyles_setHtml _)) e path
  | checkbox =>
    rw [draw, drawChecked, stylesAt?_onChild (keepsStyles_setFlag _ _), stylesAt?_onChild hdisabled,
      stylesAt?_drawLabel]
  | toggleButton =>
    rw [draw, drawActive, stylesAt?_onChild (keepsStyles_toggleClass _ _),
      stylesAt?_onChild (hdisabled.comp (keepsStyles_setHtml _))]
  | intText =>
    rw [draw, drawText, stylesAt?_onChild (keepsStyles_setAttribute _ _), stylesAt?_onChild hdisabled,
      stylesAt?_drawLabel]
  | intSlider =>
    rw [draw, drawSlider, stylesAt?_onChild (keepsStyles_setHtml _), stylesAt?_onChild (keepsStyles_setAttribute _ _),
      stylesAt?_onChild (keepsStyles_setHidden _), stylesAt?_onChild (keepsStyles_drawRange a), stylesAt?_drawLabel]

theorem stylesAt?_draw (a : Attributes) (e : Element) (kind : ViewKind) (path : List Nat) :
    (kind.draw a e).stylesAt? path = (e.stylesAt? path).map (·.merge (kind.drawnStyles a path)) := by
  by_cases hk : kind = .progress
  · subst hk
    rw [draw, stylesAt?_bar, stylesAt?_drawLabel]
    rfl
  · have hid : (fun styles : OrdMap String String => styles.merge ∅) = id := rfl
    rw [stylesAt?_draw_of_ne hk, drawnStyles_of_ne hk, hid, Option.map_id_fun, id_eq]

/-- A reaction styles nothing. -/
theorem stylesAt?_react (a : Attributes) (e : Element) (kind : ViewKind) (event : UiEvent) (path : List Nat) :
    (kind.react a e event).1.stylesAt? path = e.stylesAt? path := by
  cases kind with
  | checkbox =>
    cases event with
    | click => exact stylesAt?_onChild (keepsStyles_setFlag _ _) e 1 path
    | _ => rfl
  | toggleButton =>
    cases event with
    | click => exact stylesAt?_onChild (keepsStyles_toggleClass _ _) e 0 path
    | _ => rfl
  | intText =>
    cases event with
    | input text =>
      rw [react]
      cases Text.int64? (Text.trim text.toList) with
      | none => rfl
      | some n => exact stylesAt?_onChild (keepsStyles_setAttribute _ _) e 1 path
    | _ => rfl
  | intSlider =>
    cases event with
    | slide n =>
      rw [react, drawSlider, stylesAt?_onChild (keepsStyles_setHtml _),
        stylesAt?_onChild (keepsStyles_setAttribute _ _)]
    | _ => rfl
  | _ => cases event <;> rfl

/-! ### What a refresh puts on top -/

/-- What a refresh puts over the styles of a part: what is drawn, and over that what the selectors set. -/
def layer (kind : ViewKind) (a : Attributes) (css : Css) (path : List Nat) : OrdMap String String :=
  (kind.drawnStyles a path).merge
    (Css.dress (View.reaches kind.styleTarget? (kind.sketch a kind.layout) path) css.entries ∅)

end ViewKind

namespace View

variable {v : View}

/-- To be shown or hidden makes no difference to styles. -/
theorem followVisibility_styles (v : View) (attributes : Attributes) (path : List Nat) :
    (v.followVisibility attributes).styleTarget = v.styleTarget ∧
      (v.followVisibility attributes).element.stylesAt? path = v.element.stylesAt? path ∧
      reaches v.styleTarget (v.followVisibility attributes).element path = reaches v.styleTarget v.element path := by
  rw [followVisibility]
  split
  · exact ⟨rfl, rfl, rfl⟩
  · next visible _ =>
    split
    · exact ⟨rfl, rfl, rfl⟩
    · exact ⟨rfl, Element.stylesAt?_modifyFace (Face.keepsStyles_setHidden _) _ path,
        reaches_modifyFace v.styleTarget v.element (·.setHidden !visible) path⟩

theorem stylesAt?_follow (v : View) (m : Model) (path : List Nat) :
    (v.follow m).element.stylesAt? path =
      (v.element.stylesAt? path).map (Css.dress (reaches v.styleTarget v.element path) m.css.entries) := by
  obtain ⟨htarget, hstyles, hseen⟩ := v.followVisibility_styles m.attributes path
  rw [← hstyles, ← hseen, ← htarget]
  exact stylesAt?_followStyles _ m.css path

/-- What a refresh puts over the styles of a part of any view. -/
def overlay (v : View) (m : Model) (path : List Nat) : OrdMap String String :=
  (v.kind.drawnStyles m.attributes path).merge
    (Css.dress (reaches v.styleTarget (v.kind.sketch m.attributes v.element.bare) path) m.css.entries ∅)

theorem stylesAt?_refresh (v : View) (m : Model) (path : List Nat) :
    (v.refresh m).element.stylesAt? path = (v.element.stylesAt? path).map (·.merge (v.overlay m path)) := by
  let drawn : View := { v with element := v.kind.draw m.attributes v.element }
  have hreaches : reaches v.styleTarget drawn.element path =
      reaches v.styleTarget (v.kind.sketch m.attributes v.element.bare) path := by
    rw [← reaches_bare, ViewKind.bare_draw]
  calc (v.refresh m).element.stylesAt? path
      = (drawn.element.stylesAt? path).map (Css.dress (reaches v.styleTarget drawn.element path) m.css.entries) :=
        drawn.stylesAt?_follow m path
    _ = ((v.element.stylesAt? path).map (·.merge (v.kind.drawnStyles m.attributes path))).map
          (Css.dress (reaches v.styleTarget drawn.element path) m.css.entries) := by
        rw [ViewKind.stylesAt?_draw]
    _ = (v.element.stylesAt? path).map (·.merge (v.overlay m path)) := by
        rw [Option.map_map, hreaches]
        congr 1
        funext styles
        rw [Function.comp_apply, Css.dress_eq_merge, OrdMap.merge_assoc]
        rfl

/-- A refresh puts the layer of its model on top of each part, wherever the view comes from. -/
theorem Ready.stylesAt?_refresh (h : v.Ready) (ht : v.styleTarget = v.kind.styleTarget?) (m : Model)
    (path : List Nat) : (v.refresh m).element.stylesAt? path =
      (v.element.stylesAt? path).map (·.merge (v.kind.layer m.attributes m.css path)) := by
  -- Without its styles the view is what its kind draws, from which it follows whom a selector reaches.
  have hoverlay : v.overlay m path = v.kind.layer m.attributes m.css path := by
    rw [overlay, ViewKind.layer, ← ViewKind.bare_draw, h.bare_draw, reaches_modifyFace, ht]
  rw [v.stylesAt?_refresh, hoverlay]

/-- The styles of a view that is displayed now are those of its model. -/
theorem stylesAt?_new_refresh (kind : ViewKind) (comm : CommId) (group : GroupKey) (m : Model) (path : List Nat) :
    ((new kind comm group).refresh m).element.stylesAt? path =
      (kind.layout.faceAt? path).map fun _ => kind.layer m.attributes m.css path := by
  have hlayout : (new kind comm group).element = kind.layout.bare := by cases kind <;> rfl
  have htarget : (new kind comm group).styleTarget = kind.styleTarget? := by cases kind <;> rfl
  rw [(new_ready kind comm group).stylesAt?_refresh htarget, hlayout, Element.stylesAt?_bare, Option.map_map]
  congr 1
  funext face
  exact OrdMap.empty_merge _

end View

/-! ### What a layer depends on -/

namespace Css

/-- Whether a selector sets a property. -/
def Sets (css : Css) (selector property : String) : Prop :=
  ∃ properties, css.get? selector = some properties ∧ properties.contains property = true

/-- Whether a selector asks for the class of an active button. -/
def NamesActive (selector : String) : Prop := "active" ∈ (Selector.ofString selector).classes

/-- Whether a property is set for active buttons. -/
def MarksActive (css : Css) (property : String) : Prop := ∃ selector, css.Sets selector property ∧ NamesActive selector

theorem sets_of_mem {css : Css} {p : String × OrdMap String Value} (hp : p ∈ css.entries) {property : String}
    (hc : p.2.contains property = true) : css.Sets p.1 property :=
  ⟨p.2, OrdMap.get?_eq_some_iff.mpr hp, hc⟩

end Css

namespace ViewKind

open Face

variable {kind : ViewKind}

/-- What is drawn decides where styles go for active buttons only. -/
theorem frame_sketch (h : kind ≠ .toggleButton) (a : Attributes) :
    (kind.sketch a kind.layout).mapFaces frame = kind.layout.mapFaces frame := by
  cases kind with
  | toggleButton => contradiction
  | plain => rfl
  | container => rfl
  | progress => rfl
  | button =>
    rw [layout_button, sketch_button]
    simp only [Element.mapFaces, frame_putAll]
    rfl
  | checkbox =>
    rw [layout_checkbox, sketch_checkbox]
    simp only [Element.mapFaces, Element.mapFacesAll, frame_putAll]
    rfl
  | intText =>
    rw [layout_intText, sketch_intText]
    simp only [Element.mapFaces, Element.mapFacesAll, frame_putAll]
    rfl
  | intSlider =>
    rw [layout_intSlider, sketch_intSlider]
    simp only [Element.mapFaces, Element.mapFacesAll, frame_putAll]
    rfl

/-- A toggle button as it looks to a selector that does not ask whether it is active. -/
theorem inactive_sketch (a : Attributes) :
    (sketch a (layout .toggleButton) .toggleButton).mapFaces (fun f => (f.removeClass "active").frame) =
      (layout .toggleButton).mapFaces (fun f => (f.removeClass "active").frame) := by
  let part := ((control .toggleButton).setHtml a.description).putAll (marks a .toggleButton)
  have hframe : (part.removeClass "active").frame = part.frame.removeClass "active" := rfl
  have hnew : part.hasClass "active" = false := rfl
  have hpart : (part.toggleClass "active" a.boolValue).removeClass "active" = part.removeClass "active" :=
    toggleClass_toggleClass hnew a.boolValue false
  rw [layout_toggleButton, sketch_toggleButton]
  simp only [Element.mapFaces, Element.mapFacesAll]
  rw [hpart, hframe, frame_putAll]
  rfl

theorem reaches_sketch {selector : String} (h : kind = .toggleButton → ¬Css.NamesActive selector) (a b : Attributes)
    (path : List Nat) : View.reaches kind.styleTarget? (kind.sketch a kind.layout) path selector =
      View.reaches kind.styleTarget? (kind.sketch b kind.layout) path selector := by
  refine View.reaches_congr kind.styleTarget? fun text htext => ?_
  by_cases hk : kind = .toggleButton
  · subst hk
    -- Toggle buttons differ in one class only, for which neither the selector nor the target asks.
    have hnot : ¬Css.NamesActive text := by
      rcases htext with rfl | ht
      · exact h rfl
      · obtain rfl := Option.some.inj ht
        exact (by decide : "active" ∉ (Selector.ofString "button").classes)
    exact Selector.reaches_congr (g := fun f => (f.removeClass "active").frame) _ (Selector.selects_removeClass hnot)
      ((inactive_sketch a).trans (inactive_sketch b).symm) path
  · exact Selector.reaches_congr _ Selector.selects_frame ((frame_sketch hk a).trans (frame_sketch hk b).symm) path

/-- What a layer sets does not depend on the attributes, but for the width of a bar and the styles of active buttons. -/
theorem get?_layer_congr {css : Css} {property : String} (hk : kind ≠ .progress)
    (h : kind = .toggleButton → ¬css.MarksActive property) (a b : Attributes) (path : List Nat) :
    (kind.layer a css path).get? property = (kind.layer b css path).get? property := by
  rw [layer, layer, drawnStyles_of_ne hk, drawnStyles_of_ne hk, OrdMap.empty_merge, OrdMap.empty_merge]
  refine Css.get?_dress_congr (fun p hp hc => reaches_sketch (fun hkind hactive => ?_) a b path) rfl
  exact h hkind ⟨p.1, Css.sets_of_mem hp hc, hactive⟩

theorem contains_drawnStyles (a b : Attributes) (path : List Nat) (property : String) :
    (kind.drawnStyles a path).contains property = (kind.drawnStyles b path).contains property := by
  cases kind with
  | progress =>
    have hwidth (x y : String) : (OrdMap.ofList [("width", x)]).contains property =
        (OrdMap.ofList [("width", y)]).contains property := by
      simp only [OrdMap.contains, OrdMap.ofList, List.foldl_cons, List.foldl_nil, OrdMap.get?_insert]
      split <;> rfl
    simp only [drawnStyles]
    split
    · exact hwidth _ _
    · rfl
  | _ => rfl

/-- With more styles a layer sets more properties, whatever the attributes are. -/
theorem contains_layer_mono {css css' : Css}
    (hsub : ∀ selector property, css.Sets selector property → css'.Sets selector property)
    (h : kind = .toggleButton → ∀ property, ¬css.MarksActive property) (a b : Attributes) {path : List Nat}
    {property : String}
    (hc : (kind.layer a css path).contains property = true) : (kind.layer b css' path).contains property = true := by
  rw [layer, OrdMap.contains_merge] at hc ⊢
  refine hc.imp (fun hdrawn => contains_drawnStyles a b path property ▸ hdrawn) fun hset => ?_
  rw [Css.contains_dress] at hset ⊢
  rcases hset with hempty | ⟨p, hp, hreached, hproperty⟩
  · exact .inl hempty
  · have hsets := Css.sets_of_mem hp hproperty
    obtain ⟨properties, hget, hcontained⟩ := hsub p.1 property hsets
    refine .inr ⟨(p.1, properties), OrdMap.get?_eq_some_iff.mp hget, ?_, hcontained⟩
    rw [← hreached]
    exact reaches_sketch (fun hkind hactive => h hkind property ⟨p.1, hsets, hactive⟩) b a path

end ViewKind

end WidgetSync
