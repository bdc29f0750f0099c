import WidgetSync.Proofs.Element.Selector
import WidgetSync.Proofs.Element.Styles

/-! The walk over the selected parts of an element. Pre-order is the order of the paths by their indices from the left,
a path before those that go on from it. In that order the walk comes to each part once, and only its styles change. -/
namespace WidgetSync.Element

variable {index : Nat} {path : List Nat} {part e : Element} {es : List Element}

mutual

/-- All parts of an element in pre-order, each with its path. -/
def parts : Element → List (List Nat × Element)
  | .node face children => ([], .node face children) :: partsFrom 0 children
termination_by structural e => e

/-- The parts of children that stand side by side, the first of them at an index. -/
def partsFrom (index : Nat) : List Element → List (List Nat × Element)
  | [] => []
  | e :: rest => (parts e).map (fun m => (index :: m.1, m.2)) ++ partsFrom (index + 1) rest
termination_by structural es => es

end

theorem mem_partsFrom : (path, part) ∈ partsFrom index es ↔
    ∃ i below child, path = (index + i) :: below ∧ es[i]? = some child ∧ (below, part) ∈ child.parts := by
  induction es generalizing index with
  | nil => simp [partsFrom]
  | cons e rest ih =>
    rw [partsFrom, List.mem_append, List.mem_map, ih]
    constructor
    · rintro (⟨m, hm, heq⟩ | ⟨i, below, child, hpath, hchild, hpart⟩)
      · obtain ⟨rfl, rfl⟩ := Prod.mk.inj heq
        exact ⟨0, m.1, e, rfl, rfl, hm⟩
      · exact ⟨i + 1, below, child, by rw [hpath, Nat.add_right_comm, Nat.add_assoc], hchild, hpart⟩
    · rintro ⟨_ | i, below, child, rfl, hchild, hpart⟩
      · obtain rfl := Option.some.inj hchild
        exact .inl ⟨(below, part), hpart, rfl⟩
      · exact .inr ⟨i, below, child, by rw [Nat.add_right_comm, Nat.add_assoc], hchild, hpart⟩

theorem mem_parts : (path, part) ∈ e.parts ↔ e.at? path = some part := by
  induction path generalizing e with
  | nil =>
    cases e with
    | node face children =>
      rw [parts, List.mem_cons, mem_partsFrom, at?]
      simp [eq_comm]
  | cons index below ih =>
    cases e with
    | node face children =>
      rw [parts, List.mem_cons, mem_partsFrom, at?, children_node, Option.bind_eq_bind, Option.bind_eq_some_iff]
      simp [ih]

/-- A part below the element is not the element. -/
theorem mem_partsFrom_zero : (path, part) ∈ partsFrom 0 e.children ↔ path ≠ [] ∧ e.at? path = some part := by
  cases e with
  | node face children =>
    rw [← mem_parts, parts, List.mem_cons, children_node]
    constructor
    · intro h
      obtain ⟨i, below, -, rfl, -⟩ := mem_partsFrom.mp h
      exact ⟨List.cons_ne_nil _ _, .inr h⟩
    · rintro ⟨hne, heq | h⟩
      · exact absurd (congrArg Prod.fst heq) hne
      · exact h

mutual

theorem pairwise_parts : (e : Element) → e.parts.Pairwise (·.1 < ·.1)
  | .node face children => by
    rw [parts, List.pairwise_cons]
    refine ⟨fun m hm => ?_, pairwise_partsFrom 0 children⟩
    obtain ⟨i, below, -, hpath, -⟩ := mem_partsFrom.mp hm
    rw [hpath]
    exact List.nil_lt_cons _ _
termination_by structural e => e

theorem pairwise_partsFrom (index : Nat) : (es : List Element) → (partsFrom index es).Pairwise (·.1 < ·.1)
  | [] => .nil
  | e :: rest => by
    rw [partsFrom, List.pairwise_append, List.pairwise_map]
    refine ⟨(pairwise_parts e).imp fun h => List.cons_lt_cons_iff.mpr (.inr ⟨rfl, h⟩),
      pairwise_partsFrom (index + 1) rest, fun m hm n hn => ?_⟩
    -- The parts of the first child have its index in front, and all others a higher one.
    obtain ⟨m, -, rfl⟩ := List.mem_map.mp hm
    obtain ⟨i, below, -, hpath, -⟩ := mem_partsFrom.mp hn
    rw [hpath]
    exact List.cons_lt_cons_iff.mpr (.inl (by omega))
termination_by structural es => es

end

/-! ### The walk over a list of parts -/

section Visit

variable {σ : Type} (s : Selector) (visitor : σ → Element → σ × OrdMap String String)

/-- One part of the walk: what the visitor makes of it if it is selected, and the face that it then has. -/
def visitPart (state : σ) (part : Element) : σ × Face :=
  if s.selects part.face then
    ((visitor state part).1, { part.face with styles := (visitor state part).2 })
  else (state, part.face)

/-- The walk over parts, each with its path. -/
def visitParts (state : σ) : List (List Nat × Element) → σ × List (List Nat × Face)
  | [] => (state, [])
  | m :: rest =>
    ((visitParts (visitPart s visitor state m.2).1 rest).1,
      (m.1, (visitPart s visitor state m.2).2) :: (visitParts (visitPart s visitor state m.2).1 rest).2)

variable {s visitor} {state : σ} {ms ms' : List (List Nat × Element)}

theorem visitParts_append : visitParts s visitor state (ms ++ ms') =
    ((visitParts s visitor (visitParts s visitor state ms).1 ms').1,
      (visitParts s visitor state ms).2 ++ (visitParts s visitor (visitParts s visitor state ms).1 ms').2) := by
  induction ms generalizing state with
  | nil => rfl
  | cons m rest ih => rw [List.cons_append, visitParts, ih, visitParts, List.cons_append]

/-- The visitor does not see paths. -/
theorem visitParts_map (f : List Nat → List Nat) : visitParts s visitor state (ms.map fun m => (f m.1, m.2)) =
    ((visitParts s visitor state ms).1, (visitParts s visitor state ms).2.map fun m => (f m.1, m.2)) := by
  induction ms generalizing state with
  | nil => rfl
  | cons m rest ih => rw [List.map_cons, visitParts, ih, visitParts, List.map_cons]

theorem map_fst_visitParts : (visitParts s visitor state ms).2.map Prod.fst = ms.map Prod.fst := by
  induction ms generalizing state with
  | nil => rfl
  | cons m rest ih => rw [visitParts, List.map_cons, ih, List.map_cons]

/-- Only the selected parts change the state. -/
theorem fst_visitParts : (visitParts s visitor state ms).1 =
    (ms.filter fun m => s.selects m.2.face).foldl (fun state m => (visitor state m.2).1) state := by
  induction ms generalizing state with
  | nil => rfl
  | cons m rest ih =>
    rw [visitParts, visitPart, ih]
    by_cases hs : s.selects m.2.face = true <;> simp [hs]

/-- A visitor that counts its visits. -/
def counting (visitor : σ → Element → σ × OrdMap String String) (state : σ × Nat) (part : Element) :
    (σ × Nat) × OrdMap String String :=
  (((visitor state.1 part).1, state.2 + 1), (visitor state.1 part).2)

theorem visitParts_counting (count : Nat) : visitParts s (counting visitor) (state, count) ms =
    (((visitParts s visitor state ms).1, count + (ms.filter fun m => s.selects m.2.face).length),
      (visitParts s visitor state ms).2) := by
  induction ms generalizing state count with
  | nil => rfl
  | cons m rest ih =>
    by_cases hs : s.selects m.2.face = true
    · simp only [visitParts, visitPart, counting, hs, if_true, ih, List.filter_cons, List.length_cons]
      rw [Nat.add_right_comm, Nat.add_assoc]
    · simp only [visitParts, visitPart, hs, ih, List.filter_cons]
      rfl

/-- Styles do not decide what is selected. -/
theorem selects_visitPart (part : Element) : s.selects (visitPart s visitor state part).2 = s.selects part.face := by
  rw [visitPart]
  split <;> rfl

theorem map_fst_filter_visitParts : ((visitParts s visitor state ms).2.filter fun m => s.selects m.2).map Prod.fst =
    (ms.filter fun m => s.selects m.2.face).map Prod.fst := by
  induction ms generalizing state with
  | nil => rfl
  | cons m rest ih =>
    simp only [visitParts, List.filter_cons, selects_visitPart]
    split
    · rw [List.map_cons, List.map_cons, ih]
    · exact ih

/-- The face that a part has after the walk is due to the walk over the parts before it. -/
theorem mem_visitParts {before after : List (List Nat × Element)} {path : List Nat} {part : Element}
    (h : ms = before ++ (path, part) :: after) :
    (path, (visitPart s visitor (visitParts s visitor state before).1 part).2) ∈ (visitParts s visitor state ms).2 := by
  rw [h, visitParts_append, visitParts]
  exact List.mem_append_right _ List.mem_cons_self

/-! ### The walk over the tree -/

theorem visit_node (face : Face) (children : List Element) : visit s visitor state (.node face children) =
    ((visitAll s visitor (visitPart s visitor state (.node face children)).1 children).1,
      .node (visitPart s visitor state (.node face children)).2
        (visitAll s visitor (visitPart s visitor state (.node face children)).1 children).2) := by
  rw [visit, visitPart, Element.face]
  split <;> rfl

theorem visitAll_cons (e : Element) (rest : List Element) : visitAll s visitor state (e :: rest) =
    ((visitAll s visitor (visit s visitor state e).1 rest).1,
      (visit s visitor state e).2 :: (visitAll s visitor (visit s visitor state e).1 rest).2) := rfl

variable (s visitor)

/-- The faces at the paths of parts. -/
def facesOf (ms : List (List Nat × Element)) : List (List Nat × Face) := ms.map fun m => (m.1, m.2.face)

mutual

/-- The walk over a tree is the walk over its parts in pre-order. -/
theorem visit_eq_visitParts (state : σ) : (e : Element) →
    ((visit s visitor state e).1, facesOf (visit s visitor state e).2.parts) = visitParts s visitor state e.parts
  | .node face children => by
    -- The part itself comes first, and the walk below it starts from what that leaves.
    rw [parts, visitParts, visit_node, ← visitAll_eq_visitParts 0]
    rfl
termination_by structural e => e

theorem visitAll_eq_visitParts (index : Nat) (state : σ) : (es : List Element) →
    ((visitAll s visitor state es).1, facesOf (partsFrom index (visitAll s visitor state es).2)) =
      visitParts s visitor state (partsFrom index es)
  | [] => rfl
  | e :: rest => by
    rw [partsFrom, visitParts_append, visitParts_map, ← visit_eq_visitParts, ← visitAll_eq_visitParts (index + 1),
      visitAll_cons]
    simp [partsFrom, facesOf]
termination_by structural es => es

end

end Visit

/-! ### The search -/

mutual

theorem firstMatch?_eq (s : Selector) : (e : Element) →
    firstMatch? s e = (e.parts.find? fun m => s.selects m.2.face).map Prod.snd
  | .node face children => by
    rw [firstMatch?, parts, List.find?_cons, Element.face, firstMatchIn?_eq s 0 children]
    cases s.selects face <;> rfl
termination_by structural e => e

theorem firstMatchIn?_eq (s : Selector) (index : Nat) : (es : List Element) →
    firstMatchIn? s es = ((partsFrom index es).find? fun m => s.selects m.2.face).map Prod.snd
  | [] => rfl
  | e :: rest => by
    -- Indices go into paths alone, and the search drops these.
    rw [firstMatchIn?, firstMatch?_eq s e, firstMatchIn?_eq s (index + 1) rest, partsFrom, List.find?_append,
      List.find?_map, Option.map_or, Option.map_map]
    rfl
termination_by structural es => es

end

/-! ### The selected parts -/

section Selected

variable (e : Element) (text : String)

/-- The selected parts below an element in pre-order, each with its path. -/
def selected : List (List Nat × Element) :=
  (partsFrom 0 e.children).filter fun m => (Selector.ofString text).selects m.2.face

theorem mem_selected {path : List Nat} {part : Element} : (path, part) ∈ e.selected text ↔
    path ≠ [] ∧ e.at? path = some part ∧ Selector.Matches text part.face := by
  rw [selected, List.mem_filter, mem_partsFrom_zero, Selector.selects_ofString, and_assoc]

theorem pairwise_selected : (e.selected text).Pairwise (·.1 < ·.1) := (pairwise_partsFrom 0 e.children).filter _

theorem find?_eq_head? : e.find? text = (e.selected text).head?.map Prod.snd := by
  rw [find?, firstMatchIn?_eq _ 0, selected, List.head?_filter]

variable {σ : Type} (visitor : σ → Element → σ × OrdMap String String) (state : σ)

theorem forEachMatch_eq : e.forEachMatch text visitor state =
    ((visitAll (.ofString text) (counting visitor) (state, 0) e.children).1.1,
      .node e.face (visitAll (.ofString text) (counting visitor) (state, 0) e.children).2,
      (visitAll (.ofString text) (counting visitor) (state, 0) e.children).1.2) := rfl

theorem visitAll_counting (s : Selector) :
    ((visitAll s (counting visitor) (state, 0) e.children).1,
        facesOf (partsFrom 0 (visitAll s (counting visitor) (state, 0) e.children).2)) =
      (((visitParts s visitor state (partsFrom 0 e.children)).1,
          ((partsFrom 0 e.children).filter fun m => s.selects m.2.face).length),
        (visitParts s visitor state (partsFrom 0 e.children)).2) := by
  rw [visitAll_eq_visitParts, visitParts_counting, Nat.zero_add]

theorem fst_forEachMatch : (e.forEachMatch text visitor state).1 =
    (e.selected text).foldl (fun state m => (visitor state m.2).1) state := by
  rw [forEachMatch_eq, (Prod.mk.inj (e.visitAll_counting visitor state _)).1, fst_visitParts, selected]

theorem count_forEachMatch : (e.forEachMatch text visitor state).2.2 = (e.selected text).length := by
  rw [forEachMatch_eq, (Prod.mk.inj (e.visitAll_counting visitor state _)).1, selected]

theorem facesOf_forEachMatch : facesOf (partsFrom 0 (e.forEachMatch text visitor state).2.1.children) =
    (visitParts (.ofString text) visitor state (partsFrom 0 e.children)).2 := by
  rw [forEachMatch_eq, children_node, (Prod.mk.inj (e.visitAll_counting visitor state _)).2]

theorem mem_facesOf {path : List Nat} {face : Face} : (path, face) ∈ facesOf (partsFrom 0 e.children) ↔
    path ≠ [] ∧ e.faceAt? path = some face := by
  rw [facesOf, List.mem_map, faceAt?, Option.map_eq_some_iff]
  constructor
  · rintro ⟨m, hm, heq⟩
    obtain ⟨rfl, rfl⟩ := Prod.mk.inj heq
    obtain ⟨hne, hpart⟩ := mem_partsFrom_zero.mp hm
    exact ⟨hne, m.2, hpart, rfl⟩
  · rintro ⟨hne, part, hpart, rfl⟩
    exact ⟨(path, part), mem_partsFrom_zero.mpr ⟨hne, hpart⟩, rfl⟩

/-- The walk passes a part after the parts before it. -/
theorem faceAt?_forEachMatch {before after : List (List Nat × Element)} {path : List Nat} {part : Element}
    (h : partsFrom 0 e.children = before ++ (path, part) :: after) :
    (e.forEachMatch text visitor state).2.1.faceAt? path =
      some (visitPart (.ofString text) visitor (visitParts (.ofString text) visitor state before).1 part).2 := by
  refine ((mem_facesOf _).mp ?_).2
  rw [facesOf_forEachMatch]
  exact mem_visitParts h

theorem faceAt?_forEachMatch_of_selected {before after : List (List Nat × Element)} {path : List Nat} {part : Element}
    (h : e.selected text = before ++ (path, part) :: after) :
    (e.forEachMatch text visitor state).2.1.faceAt? path = some { part.face with
      styles := (visitor (before.foldl (fun state m => (visitor state m.2).1) state) part).2 } := by
  obtain ⟨pre, rest, hparts, rfl, hrest⟩ := List.filter_eq_append_iff.mp h
  -- The parts that are passed since the visit before leave the state as it is.
  obtain ⟨passed, post, rfl, hpassed, hs, -⟩ := List.filter_eq_cons_iff.mp hrest
  rw [← List.append_assoc] at hparts
  rw [faceAt?_forEachMatch e text visitor state hparts, visitPart, if_pos hs, fst_visitParts, List.filter_append,
    List.filter_eq_nil_iff.mpr hpassed, List.append_nil]

theorem faceAt?_forEachMatch_of_not_selected {path : List Nat} (h : path ∉ (e.selected text).map Prod.fst) :
    (e.forEachMatch text visitor state).2.1.faceAt? path = e.faceAt? path := by
  by_cases hroot : path = []
  · rw [hroot]
    rfl
  cases hpart : e.at? path with
  | some part =>
    have hmem := mem_partsFrom_zero.mpr ⟨hroot, hpart⟩
    have hs : ¬(Selector.ofString text).selects part.face = true := fun hs =>
      h (List.mem_map_of_mem (List.mem_filter.mpr ⟨hmem, hs⟩))
    obtain ⟨before, after, hparts⟩ := List.append_of_mem hmem
    rw [faceAt?_forEachMatch e text visitor state hparts, visitPart, if_neg hs, faceAt?, hpart]
    rfl
  | none =>
    cases hface : (e.forEachMatch text visitor state).2.1.faceAt? path with
    | none =>
      rw [faceAt?, hpart]
      rfl
    | some face =>
      -- The walk makes no new paths.
      have hpath := List.mem_map_of_mem ((mem_facesOf _).mpr ⟨hroot, hface⟩) (f := Prod.fst)
      rw [facesOf_forEachMatch, map_fst_visitParts] at hpath
      obtain ⟨m, hm, rfl⟩ := List.mem_map.mp hpath
      exact absurd ((mem_partsFrom_zero.mp hm).2.symm.trans hpart) (Option.some_ne_none _)

/-- The walk leaves selected what was, though not with its styles. -/
theorem map_fst_selected_forEachMatch : ((e.forEachMatch text visitor state).2.1.selected text).map Prod.fst =
    (e.selected text).map Prod.fst := by
  have hfaces (ms : List (List Nat × Element)) (s : Selector) : (ms.filter fun m => s.selects m.2.face).map Prod.fst =
      ((facesOf ms).filter fun m => s.selects m.2).map Prod.fst := by
    rw [facesOf, List.filter_map, List.map_map]
    rfl
  rw [selected, hfaces, facesOf_forEachMatch, map_fst_filter_visitParts, selected]

theorem find?_eq_bind : e.find? text = ((e.selected text).map Prod.fst).head?.bind e.at? := by
  rw [find?_eq_head?]
  cases hselected : e.selected text with
  | nil => rfl
  | cons m rest =>
    have hm : m ∈ e.selected text := hselected ▸ List.mem_cons_self
    exact ((e.mem_selected text).mp hm).2.1.symm

end Selected

/-- A walk visits the matching parts below an element in pre-order, each once and with what is below it as it was. It
leaves them the styles that the visitor gives, and all else as it is. The search ends at the first of these parts. -/
theorem forEachMatch_visits_matches (e : Element) (text : String) :
    ∃ visited : List (List Nat × Element),
      visited.Pairwise (·.1 < ·.1) ∧
      (∀ path part, (path, part) ∈ visited ↔
        path ≠ [] ∧ e.at? path = some part ∧ Selector.Matches text part.face) ∧
      (∀ tag classes face, Selector.Spells text tag classes →
        (tag ≠ "" → tag ≠ "*" → (Selector.Matches text face ↔ tag = face.tag ∧ classes ⊆ face.classes)) ∧
        (tag = "" → classes ≠ [] → (Selector.Matches text face ↔ classes ⊆ face.classes))) ∧
      e.find? text = visited.head?.map Prod.snd ∧
      ∀ {σ : Type} (visitor : σ → Element → σ × OrdMap String String) (state : σ),
        let walk := e.forEachMatch text visitor state
        walk.1 = visited.foldl (fun state m => (visitor state m.2).1) state ∧
        walk.2.2 = visited.length ∧
        (e.find? text = none ↔ walk.2.2 = 0) ∧
        (∀ before path part after, visited = before ++ (path, part) :: after →
          walk.2.1.faceAt? path = some { part.face with
            styles := (visitor (before.foldl (fun state m => (visitor state m.2).1) state) part).2 }) ∧
        (∀ path, path ∉ visited.map Prod.fst → walk.2.1.faceAt? path = e.faceAt? path) ∧
        walk.2.1.find? text = (visited.map Prod.fst).head?.bind walk.2.1.at? := by
  refine ⟨e.selected text, e.pairwise_selected text, fun path part => e.mem_selected text,
    fun tag classes face h => ⟨h.matches_tag, fun htag hne => ?_⟩, e.find?_eq_head? text, fun visitor state => ?_⟩
  · subst htag
    exact h.matches_classes hne
  intro walk
  refine ⟨e.fst_forEachMatch text visitor state, e.count_forEachMatch text visitor state, ?_,
    fun before path part after h => e.faceAt?_forEachMatch_of_selected text visitor state h,
    fun path h => e.faceAt?_forEachMatch_of_not_selected text visitor state h, ?_⟩
  · rw [e.find?_eq_head? text, e.count_forEachMatch text visitor state, Option.map_eq_none_iff, List.head?_eq_none_iff,
      List.length_eq_zero_iff]
  · rw [find?_eq_bind, e.map_fst_selected_forEachMatch text visitor state]

end WidgetSync.Element
