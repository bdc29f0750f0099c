import WidgetSync.Proofs.Element.Bare

/-! The styles of an element, part by part. Style overrides go to the parts that a selector names, which it picks by tag
and classes alone, so that styles never decide where styles go. -/
namespace WidgetSync

namespace Element

/-- The face of the part at the end of a path. -/
def faceAt? (e : Element) (path : List Nat) : Option Face := (e.at? path).map (·.face)

def stylesAt? (e : Element) (path : List Nat) : Option (OrdMap String String) := (e.faceAt? path).map (·.styles)

/-- A part has a property of its style. -/
def HasStyle (e : Element) (path : List Nat) (property value : String) : Prop :=
  ∃ styles, e.stylesAt? path = some styles ∧ styles.get? property = some value

theorem children_node (face : Face) (children : List Element) : (Element.node face children).children = children := rfl

theorem faceAt?_cons (e : Element) (index : Nat) (path : List Nat) :
    e.faceAt? (index :: path) = e.children[index]?.bind (·.faceAt? path) := by
  rw [faceAt?, at?]
  cases e.children[index]? <;> rfl

theorem stylesAt?_cons (e : Element) (index : Nat) (path : List Nat) :
    e.stylesAt? (index :: path) = e.children[index]?.bind (·.stylesAt? path) := by
  rw [stylesAt?, faceAt?_cons]
  cases e.children[index]? <;> rfl

theorem faceAt?_bare (e : Element) (path : List Nat) : e.bare.faceAt? path = (e.faceAt? path).map Face.bare := by
  rw [faceAt?, at?_bare, faceAt?, Option.map_map, Option.map_map]
  congr 1
  funext part
  exact part.face_bare

theorem stylesAt?_bare (e : Element) (path : List Nat) : e.bare.stylesAt? path = (e.faceAt? path).map fun _ => ∅ := by
  rw [stylesAt?, faceAt?_bare, Option.map_map]
  rfl

mutual

/-- An element is known by the faces of its parts. -/
theorem ext_faceAt? : (e e' : Element) → (∀ path, e.faceAt? path = e'.faceAt? path) → e = e'
  | .node face children, .node face' children', h => by
    obtain rfl : face = face' := Option.some.inj (h [])
    have hchildren : children = children' := ext_children children children' fun index path => by
      have hpath := h (index :: path)
      rwa [faceAt?_cons, faceAt?_cons] at hpath
    rw [hchildren]
termination_by structural e => e

theorem ext_children : (es es' : List Element) →
    (∀ (index : Nat) (path : List Nat), es[index]?.bind (·.faceAt? path) = es'[index]?.bind (·.faceAt? path)) → es = es'
  | [], [], _ => rfl
  | [], _ :: _, h | _ :: _, [], h => nomatch h 0 []
  | e :: rest, e' :: rest', h => by
    rw [ext_faceAt? e e' fun path => h 0 path, ext_children rest rest' fun index path => h (index + 1) path]
termination_by structural es => es

end

/-- Elements that are the same but for their styles are the same if these are, part by part. -/
theorem ext_of_bare {e e' : Element} (hb : e.bare = e'.bare)
    (hs : ∀ path styles styles', e.stylesAt? path = some styles → e'.stylesAt? path = some styles' → styles = styles') :
    e = e' := by
  refine ext_faceAt? e e' fun path => ?_
  have hbare : (e.faceAt? path).map Face.bare = (e'.faceAt? path).map Face.bare := by
    rw [← faceAt?_bare, ← faceAt?_bare, hb]
  cases hf : e.faceAt? path with
  | none =>
    rw [hf] at hbare
    exact (Option.map_eq_none_iff.mp hbare.symm).symm
  | some f =>
    rw [hf, Option.map_some] at hbare
    obtain ⟨g, hg, hfg⟩ := Option.map_eq_some_iff.mp hbare.symm
    have hstyles : f.styles = g.styles :=
      hs path f.styles g.styles (by rw [stylesAt?, hf]; rfl) (by rw [stylesAt?, hg]; rfl)
    -- A face is its bare face and its styles.
    have hrest (x : Face) : x = { x.bare with styles := x.styles } := rfl
    rw [hg, hrest f, hrest g, hfg, hstyles]

/-! ### Changes that leave styles alone -/

theorem stylesAt?_modifyFace {f : Face → Face} (hf : ∀ x, (f x).styles = x.styles) (e : Element) (path : List Nat) :
    (e.modifyFace f).stylesAt? path = e.stylesAt? path := by
  cases path with
  | nil => exact congrArg some (hf e.face)
  | cons index path => rw [stylesAt?_cons, stylesAt?_cons, modifyFace, children_node]

theorem stylesAt?_modifyChild (e : Element) (index : Nat) (f : Element → Element) (path : List Nat)
    (hf : ∀ child below, path = index :: below → (f child).stylesAt? below = child.stylesAt? below) :
    (e.modifyChild index f).stylesAt? path = e.stylesAt? path := by
  cases path with
  | nil => rfl
  | cons first below =>
    rw [modifyChild, stylesAt?_cons, stylesAt?_cons, children_node, List.getElem?_modify]
    cases e.children[first]? with
    | none => rfl
    | some child =>
      by_cases hi : index = first
      · have hchild := hf child below (congrArg (· :: below) hi.symm)
        simpa [hi] using hchild
      · simp [hi]

theorem stylesAt?_onChild {f : Face → Face} (hf : ∀ x, (f x).styles = x.styles) (e : Element) (index : Nat)
    (path : List Nat) : (ViewKind.onChild e index f).stylesAt? path = e.stylesAt? path :=
  e.stylesAt?_modifyChild index _ path fun child below _ => stylesAt?_modifyFace hf child below

/-! ### Changes of all faces -/

mutual

def mapFaces (f : Face → Face) : Element → Element
  | .node face children => .node (f face) (mapFacesAll f children)
termination_by structural e => e

def mapFacesAll (f : Face → Face) : List Element → List Element
  | [] => []
  | e :: rest => mapFaces f e :: mapFacesAll f rest
termination_by structural es => es

end

theorem mapFacesAll_eq_map (f : Face → Face) (es : List Element) : mapFacesAll f es = es.map (mapFaces f) := by
  induction es with
  | nil => rfl
  | cons e rest ih => rw [mapFacesAll, ih, List.map_cons]

theorem faceAt?_mapFaces (f : Face → Face) (e : Element) (path : List Nat) :
    (e.mapFaces f).faceAt? path = (e.faceAt? path).map f := by
  induction path generalizing e with
  | nil =>
    cases e
    rfl
  | cons index path ih =>
    cases e with
    | node face children =>
      rw [mapFaces, mapFacesAll_eq_map, faceAt?_cons, faceAt?_cons, children_node, children_node, List.getElem?_map]
      cases children[index]? with
      | none => rfl
      | some child => exact ih child

end Element

/-! ### Selected parts -/

namespace Selector

/-- New styles for a face, if it is selected. -/
def restyle (s : Selector) (f : OrdMap String String → OrdMap String String) (face : Face) : Face :=
  if s.selects face then { face with styles := f face.styles } else face

/-- Whether the part at the end of a path is selected, below the element. -/
def reaches (s : Selector) (e : Element) (path : List Nat) : Bool := path ≠ [] && (e.faceAt? path).any s.selects

variable (s : Selector)

/-- What a selector cannot tell apart it reaches alike. -/
theorem reaches_congr {g : Face → Face} (hg : ∀ f, s.selects (g f) = s.selects f) {e e' : Element}
    (he : e.mapFaces g = e'.mapFaces g) (path : List Nat) : s.reaches e path = s.reaches e' path := by
  have hfaces := congrArg (·.faceAt? path) he
  simp only [Element.faceAt?_mapFaces] at hfaces
  have hany (found : Option Face) : found.any s.selects = (found.map g).any s.selects := by
    cases found with
    | none => rfl
    | some f => exact (hg f).symm
  rw [reaches, reaches, hany, hfaces, ← hany]

theorem reaches_bare (e : Element) (path : List Nat) : s.reaches e.bare path = s.reaches e path := by
  rw [reaches, reaches, Element.faceAt?_bare]
  cases e.faceAt? path <;> rfl

/-- The element itself is not below itself. -/
theorem reaches_modifyFace (e : Element) (f : Face → Face) (path : List Nat) :
    s.reaches (e.modifyFace f) path = s.reaches e path := by
  cases path with
  | nil => rfl
  | cons index path => rw [reaches, reaches, Element.faceAt?_cons, Element.faceAt?_cons]; rfl

end Selector

namespace Element

section Visit

variable {σ : Type} (s : Selector) {visitor : σ → Element → σ × OrdMap String String}
  {f : OrdMap String String → OrdMap String String}

mutual

/-- A visitor that has the same styles to give wherever it comes gives them to each selected part. -/
theorem visit_eq (hf : ∀ state e, (visitor state e).2 = f e.face.styles) (state : σ) :
    (e : Element) → (visit s visitor state e).2 = e.mapFaces (s.restyle f)
  | .node face children => by
    rw [visit, mapFaces, Selector.restyle]
    split
    · have hstyles : (visitor state (.node face children)).2 = f face.styles := hf state _
      simp only [hstyles, visitAll_eq hf]
    · simp only [visitAll_eq hf]
termination_by structural e => e

theorem visitAll_eq (hf : ∀ state e, (visitor state e).2 = f e.face.styles) (state : σ) :
    (es : List Element) → (visitAll s visitor state es).2 = mapFacesAll (s.restyle f) es
  | [] => rfl
  | e :: rest => by
    rw [visitAll, mapFacesAll]
    simp only [visit_eq hf, visitAll_eq hf]
termination_by structural es => es

end

end Visit

theorem restyleMatches_eq (e : Element) (selector : String) (f : OrdMap String String → OrdMap String String) :
    e.restyleMatches selector f = .node e.face (mapFacesAll ((Selector.ofString selector).restyle f) e.children) := by
  rw [restyleMatches, forEachMatch]
  exact congrArg (Element.node e.face) (visitAll_eq _ (fun _ _ => rfl) _ _)

/-- Below an element the selected parts get new styles, and the other parts keep theirs. -/
theorem stylesAt?_restyleMatches (e : Element) (selector : String) (f : OrdMap String String → OrdMap String String)
    (path : List Nat) : (e.restyleMatches selector f).stylesAt? path =
      (e.stylesAt? path).map fun styles =>
        if (Selector.ofString selector).reaches e path then f styles else styles := by
  rw [restyleMatches_eq]
  -- The element itself is no match of its own, so the root is left out of the search.
  cases path with
  | nil => rfl
  | cons index path =>
    rw [Selector.reaches, stylesAt?, stylesAt?, faceAt?_cons, faceAt?_cons]
    rw [children_node, mapFacesAll_eq_map, List.getElem?_map]
    cases e.children[index]? with
    | none => rfl
    | some child =>
      simp only [Option.map_some, Option.bind_some, faceAt?_mapFaces]
      rcases (child.faceAt? path).eq_none_or_eq_some with hface | ⟨face, hface⟩
      · simp [hface]
      · by_cases hs : (Selector.ofString selector).selects face <;> simp [hface, Selector.restyle, hs]

end Element

end WidgetSync
