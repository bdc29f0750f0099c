import WidgetSync.Manager.Render
import WidgetSync.Proofs.Manager.Showing
import WidgetSync.Proofs.Manager.Standing
import Mathlib.Data.List.Perm.Basic

/-! The page of a manager. Rendering goes through the areas that are shown, and from each view that they list to the
views that it hosts. Here the page is cut into pieces, so that it can be said which views it shows and how often: every
live view, once. -/
namespace WidgetSync

/-- A piece of the page: text around the views, or where a view begins or ends. -/
inductive Piece where
  | text (markup : String)
  | opening (id : ViewId)
  | closing (id : ViewId)
  deriving DecidableEq

namespace Piece

/-- The view that begins with a piece. -/
def opened? : Piece → Option ViewId
  | .opening id => some id
  | .text _ => none
  | .closing _ => none

/-- The views that begin in some pieces, in their order. -/
def opened (pieces : List Piece) : List ViewId := pieces.filterMap opened?

theorem opened_append (xs ys : List Piece) : opened (xs ++ ys) = opened xs ++ opened ys :=
  List.filterMap_append

theorem opened_flatMap {α : Type} (f : α → List Piece) (xs : List α) :
    opened (xs.flatMap f) = xs.flatMap fun x => opened (f x) := List.filterMap_flatMap

end Piece

namespace Element

/-- The markup of an element up to where more of it may be added. -/
def front (e : Element) : String := e.face.opening ++ e.face.html ++ allHtml e.children

theorem htmlWith_eq {e : Element} (h : e.face.isVoid = false) (extra : String) :
    e.htmlWith extra = e.front ++ extra ++ e.face.closing := by
  rw [htmlWith, h]
  rfl

end Element

/-- A view that shows anything has room for hosted views. -/
theorem View.Shows.isVoid_eq_false {v : View} {a : Attributes} (h : v.Shows a) :
    v.element.face.isVoid = false := by
  have htag : v.element.face.tag = (v.kind.sketch a v.kind.layout).face.tag := by
    have hbare := congrArg (fun e : Element => e.face.tag) h
    rwa [Element.face_bare] at hbare
  -- The root of a layout is no void element, and to draw leaves its tag.
  have hroot (kind : ViewKind) : Face.voidTags.contains (kind.sketch a kind.layout).face.tag = false := by
    cases kind with
    | button =>
      rw [ViewKind.layout_button, ViewKind.sketch_button]
      rfl
    | _ => rfl
  rw [Face.isVoid, htag, hroot]

theorem join_map_flatMap {α β : Type} (f : β → String) (g : α → List β) (xs : List α) :
    String.join ((xs.flatMap g).map f) = String.join (xs.map fun x => String.join ((g x).map f)) := by
  induction xs with
  | nil => rfl
  | cons x rest ih =>
    rw [List.flatMap_cons, List.map_append, String.join_append, ih, List.map_cons, String.join_cons]

namespace Manager

open Piece

variable {m : Manager}

/-- The pieces of a view, those of the views that it hosts between its own. -/
def piecesOf (m : Manager) (id : ViewId) : List Piece :=
  m.views.fold [] (fun id _ below => .opening id :: below.flatten ++ [.closing id]) m.views.size id

/-- The pieces of an area, none while it is not shown. -/
def piecesIn (m : Manager) (area : WidgetArea) : List Piece :=
  if area.isShown then
    .text "<div class=\"widget-area\"><div class=\"widget-subarea\">" :: area.views.flatMap m.piecesOf
      ++ [.text "</div></div>", .text "\n"]
  else []

def cellPieces (m : Manager) (index : Nat) (cell : Cell) : List Piece :=
  .text (line ("[cell " ++ String.ofList (Text.ofNat index) ++ "]")) :: m.piecesIn cell.area
    ++ cell.outputs.map fun output => .text (line output)

/-- The pieces of the page: cell by cell, and then the detached area. -/
def page (m : Manager) : List Piece :=
  m.notebook.cells.zipIdx.flatMap (fun p => m.cellPieces p.2 p.1)
    ++ if m.notebook.detached.isShown then .text (line "[detached]") :: m.piecesIn m.notebook.detached else []

/-- The markup of a piece. A view begins with its element up to where it ends, so that what it hosts is inside. -/
def markup (m : Manager) : Piece → String
  | .text markup => markup
  | .opening id => (m.views.get? id).elim "" fun slot => slot.view.element.front
  | .closing id => (m.views.get? id).elim "" fun slot => slot.view.element.face.closing

/-! ### The markup of a view -/

theorem renderTree_eq_fold (m : Manager) (fuel : Nat) (id : ViewId) : m.renderTree fuel id =
    m.views.fold "" (fun _ slot below => slot.view.element.htmlWith (String.join below)) fuel id := by
  induction fuel generalizing id with
  | zero => rfl
  | succ fuel ih =>
    have hsame : m.renderTree fuel =
        m.views.fold "" (fun _ slot below => slot.view.element.htmlWith (String.join below)) fuel := funext ih
    cases hs : m.views.get? id with
    | none => simp only [renderTree, Arena.fold, hs]
    | some slot => simp only [renderTree, Arena.fold, hs, hsame]

theorem renderView_of_dead {id : ViewId} (hd : m.views.get? id = none) : m.renderView id = "" := by
  rw [renderView, renderTree_eq_fold, Arena.fold_of_dead hd]

theorem renderView_of_live (hf : m.views.Forest) {id : ViewId} {slot : Slot} (hs : m.views.get? id = some slot) :
    m.renderView id = slot.view.element.htmlWith (String.join (slot.view.children.map m.renderView)) := by
  have hfold : m.renderView =
      m.views.fold "" (fun _ slot below => slot.view.element.htmlWith (String.join below)) m.views.size :=
    funext (m.renderTree_eq_fold m.views.size)
  rw [hfold, hf.fold_of_live hs]

theorem piecesOf_of_dead {id : ViewId} (hd : m.views.get? id = none) : m.piecesOf id = [] := by
  rw [piecesOf, Arena.fold_of_dead hd]

theorem piecesOf_of_live (hf : m.views.Forest) {id : ViewId} {slot : Slot} (hs : m.views.get? id = some slot) :
    m.piecesOf id = .opening id :: slot.view.children.flatMap m.piecesOf ++ [.closing id] := by
  rw [piecesOf, hf.fold_of_live hs, List.flatMap_def]
  rfl

/-- The pieces of a view make up its markup. -/
theorem join_piecesOf (hf : m.views.Forest)
    (hroom : ∀ id slot, m.views.get? id = some slot → slot.view.element.face.isVoid = false) (id : ViewId) :
    String.join ((m.piecesOf id).map m.markup) = m.renderView id := by
  induction id using hf.induction with
  | step id ih =>
    cases hs : m.views.get? id with
    | none =>
      rw [piecesOf_of_dead hs, renderView_of_dead hs]
      rfl
    | some slot =>
      have hbelow : (slot.view.children.map fun child => String.join ((m.piecesOf child).map m.markup)) =
          slot.view.children.map m.renderView :=
        List.map_congr_left fun child hc => ih child ⟨slot, hs, hc⟩
      -- In a void element there would be no room for the views that it hosts.
      rw [piecesOf_of_live hf hs, renderView_of_live hf hs, Element.htmlWith_eq (hroom id slot hs)]
      simp only [List.cons_append, List.map_cons, List.map_append, List.map_nil, String.join_cons,
        String.join_append, String.join_nil, join_map_flatMap, hbelow, markup, hs, Option.elim_some,
        String.append_empty, String.append_assoc]

/-! ### The markup of the page -/

/-- An area without markup is one that is not shown. -/
theorem renderArea_eq_empty_iff (m : Manager) (group : GroupKey) :
    m.renderArea group = "" ↔ (m.notebook.area group).isShown = false := by
  rw [renderArea]
  cases (m.notebook.area group).isShown with
  | false => simp
  | true => simp [String.append_eq_empty_iff]

section Render

variable (hviews : ∀ id, String.join ((m.piecesOf id).map m.markup) = m.renderView id)
include hviews

/-- The pieces of an area make up the line that it is on. -/
theorem join_piecesIn (group : GroupKey) : String.join ((m.piecesIn (m.notebook.area group)).map m.markup) =
    lineOf (m.renderArea group) := by
  have hsame : (fun id => String.join ((m.piecesOf id).map m.markup)) = m.renderView := funext hviews
  have hempty := m.renderArea_eq_empty_iff group
  rw [piecesIn, lineOf]
  cases hshown : (m.notebook.area group).isShown with
  | false =>
    rw [if_pos (hempty.mpr hshown)]
    rfl
  | true =>
    have hne : m.renderArea group ≠ "" := fun he => Bool.false_ne_true ((hempty.mp he).symm.trans hshown)
    rw [if_neg hne, line, renderArea, hshown]
    simp only [if_true, List.cons_append, List.map_cons, List.map_append, List.map_nil, String.join_cons,
      String.join_append, String.join_nil, join_map_flatMap, hsame, markup, String.append_empty,
      String.append_assoc]

theorem renderCells_eq {index : Nat} {cells : List Cell}
    (harea : ∀ i cell, cells[i]? = some cell → m.notebook.area (.cell (index + i)) = cell.area) :
    m.renderCells index cells =
      String.join (((cells.zipIdx index).flatMap fun p => m.cellPieces p.2 p.1).map m.markup) := by
  induction cells generalizing index with
  | nil => rfl
  | cons cell rest ih =>
    have hcell : m.notebook.area (.cell index) = cell.area := harea 0 cell rfl
    have hrest := ih fun i next hn => by
      rw [Nat.add_assoc, Nat.add_comm 1 i]
      exact harea (i + 1) next hn
    rw [renderCells, hrest, List.zipIdx_cons, List.flatMap_cons, List.map_append, String.join_append, cellPieces,
      List.cons_append, List.map_cons, List.map_append, String.join_cons, String.join_append, ← hcell,
      join_piecesIn hviews, List.map_map]
    simp only [Function.comp_def, markup, String.append_assoc]

theorem render_eq : m.render = String.join (m.page.map m.markup) := by
  have hcells : ∀ i cell, m.notebook.cells[i]? = some cell → m.notebook.area (.cell (0 + i)) = cell.area := by
    intro i cell hc
    rw [Nat.zero_add, Notebook.area, hc]
    rfl
  have hdetached : (if m.renderArea .detached = "" then "" else line "[detached]" ++ line (m.renderArea .detached)) =
      String.join ((if m.notebook.detached.isShown then
        .text (line "[detached]") :: m.piecesIn m.notebook.detached else []).map m.markup) := by
    have hline : String.join ((m.piecesIn m.notebook.detached).map m.markup) = lineOf (m.renderArea .detached) :=
      join_piecesIn hviews .detached
    have hempty := m.renderArea_eq_empty_iff .detached
    rw [lineOf] at hline
    by_cases hshown : m.notebook.detached.isShown = true
    · have hne : m.renderArea .detached ≠ "" := fun he => Bool.false_ne_true ((hempty.mp he).symm.trans hshown)
      rw [if_neg hne] at hline
      rw [if_neg hne, if_pos hshown, List.map_cons, String.join_cons, hline, markup]
    · rw [if_pos (hempty.mpr (Bool.eq_false_iff.mpr hshown)), if_neg hshown]
      rfl
  rw [render, page, List.map_append, String.join_append, renderCells_eq hviews hcells, hdetached]

end Render

/-! ### The views of the page -/

/-- In the pieces of a view begin the views of its subtree, hosts first. -/
theorem opened_piecesOf_perm (hf : m.views.Forest) (id : ViewId) :
    (opened (m.piecesOf id)).Perm (m.views.subtree id) := by
  induction id using hf.induction with
  | step id ih =>
    cases hs : m.views.get? id with
    | none =>
      rw [piecesOf_of_dead hs, Arena.subtree_of_dead hs]
      exact .refl _
    | some slot =>
      have hbelow : (slot.view.children.flatMap fun child => opened (m.piecesOf child)).Perm
          (slot.view.children.flatMap m.views.subtree) :=
        .flatMap_left _ fun child hc => ih child ⟨slot, hs, hc⟩
      have hpieces : opened (m.piecesOf id) =
          id :: slot.view.children.flatMap fun child => opened (m.piecesOf child) := by
        rw [piecesOf_of_live hf hs, opened_append, ← opened_flatMap]
        exact List.append_nil _
      rw [hpieces, hf.subtree_eq hs]
      exact (hbelow.cons id).trans (List.perm_append_singleton id _).symm

theorem opened_piecesIn (m : Manager) (area : WidgetArea) : opened (m.piecesIn area) =
    (if area.isShown then area.views else []).flatMap fun id => opened (m.piecesOf id) := by
  rw [piecesIn]
  split
  · rw [← opened_flatMap, List.cons_append]
    exact (opened_append _ _).trans (List.append_nil _)
  · rfl

/-- On the page begin the views in the areas that are shown, with what they host. -/
theorem opened_page (m : Manager) :
    opened m.page = m.notebook.shown.flatMap fun id => opened (m.piecesOf id) := by
  -- Headings and outputs begin no view, and the numbers of the cells are nowhere but in the headings.
  have hcell (index : Nat) (cell : Cell) : opened (m.cellPieces index cell) = opened (m.piecesIn cell.area) := by
    have houtputs : opened (cell.outputs.map fun output => .text (line output)) = [] := by
      rw [opened, List.filterMap_map]
      exact List.filterMap_eq_nil_iff.mpr fun _ _ => rfl
    rw [cellPieces, opened_append, houtputs, List.append_nil]
    rfl
  have hcells : opened (m.notebook.cells.zipIdx.flatMap fun p => m.cellPieces p.2 p.1) =
      (m.notebook.cells.map (·.area)).flatMap fun area => opened (m.piecesIn area) := by
    have hfst := congrArg (List.flatMap fun cell : Cell => opened (m.piecesIn cell.area))
      (List.zipIdx_map_fst 0 m.notebook.cells)
    rw [List.flatMap_map] at hfst
    rw [opened_flatMap, List.flatMap_map, ← hfst]
    exact List.flatMap_congr fun p _ => hcell p.2 p.1
  have hdetached : opened (if m.notebook.detached.isShown then
      .text (line "[detached]") :: m.piecesIn m.notebook.detached else []) =
      opened (m.piecesIn m.notebook.detached) := by
    split
    · rfl
    · next hno =>
      rw [piecesIn, if_neg hno]
  rw [page, opened_append, hcells, hdetached, Notebook.shown, List.flatMap_assoc, List.flatMap_append,
    List.flatMap_singleton]
  simp only [opened_piecesIn]
  rfl

/-- The page shows every live view exactly once. In every state that operations reach from a new manager over a
notebook, whatever cells are named: no way from hosts to what they host goes on without end, so that the markup of a
view is made of its element and the markup of the views that it hosts, in their order; an id without a live view has
no markup; the markup of the page is that of its pieces, area by area; and the views that begin on it are the live
views, each once. -/
theorem page_shows_live_views (cells throttle : Nat) (ops : List Operation) :
    let m := ((new (.withCells cells) throttle).run ops).1
    (WellFounded fun child host => m.views.Hosts host child) ∧
    (∀ id, m.views.get? id = none → m.renderView id = "" ∧ m.piecesOf id = []) ∧
    (∀ id slot, m.views.get? id = some slot →
      m.renderView id = slot.view.element.htmlWith (String.join (slot.view.children.map m.renderView)) ∧
      m.piecesOf id = .opening id :: slot.view.children.flatMap m.piecesOf ++ [.closing id]) ∧
    m.render = String.join (m.page.map m.markup) ∧
    (Piece.opened m.page).Nodup ∧ ∀ id, id ∈ Piece.opened m.page ↔ ∃ slot, m.views.get? id = some slot := by
  intro m
  have hstart : (new (.withCells cells) throttle).Consistent := new_consistent (.withCells cells) throttle
  have h : m.Consistent := hstart.run ops
  have hp : m.Paged fun id => False ∨ (new (.withCells cells) throttle).Stranded ops id :=
    hstart.paged_run (new_paged cells throttle) ops
  -- Whatever a view shows of its model, current or not, is drawn into its layout.
  have hroom : ∀ id slot, m.views.get? id = some slot → slot.view.element.face.isVoid = false := by
    intro id slot hs
    have hpictured := hstart.pictured_run (new_pictured (.withCells cells) throttle fun _ => True)
      fun view changes (_ : Operation.change view changes ∈ ops) => trivial
    obtain ⟨a, hshows⟩ := hpictured.drawn id slot hs List.not_mem_nil
    exact hshows.isVoid_eq_false
  -- What begins on the page are the subtrees of all that is listed, since all that is listed is shown.
  have hopened : (opened m.page).Perm (m.notebook.listed.flatMap m.views.subtree) := by
    rw [opened_page, hp.revealed.shown_eq]
    exact .flatMap_left _ fun id _ => opened_piecesOf_perm h.forest id
  obtain ⟨hnodup, hlive⟩ := hp.subtrees_of_listed h
  refine ⟨⟨fun id => h.forest.induction (fun host ih => ⟨host, ih⟩) id⟩,
    fun id hd => ⟨renderView_of_dead hd, piecesOf_of_dead hd⟩,
    fun id slot hs => ⟨renderView_of_live h.forest hs, piecesOf_of_live h.forest hs⟩,
    render_eq (join_piecesOf h.forest hroom), hopened.nodup_iff.mpr hnodup, fun id => ?_⟩
  rw [hopened.mem_iff, hlive]

/-- A container for a cell that is added only later, with a checkbox in it: both are on the page, one in the other. -/
example :
    let ops : List Operation := [.registerDefaults, .openComm ⟨⟨"c"⟩, "ContainerWidgetModel"⟩,
      .openComm ⟨⟨"d"⟩, "BoolWidgetModel"⟩, .display ⟨"c"⟩ "ContainerView" none (.cell 5),
      .display ⟨"d"⟩ "CheckboxView" (some ⟨"c"⟩) (.cell 5), .execute 5 "m"]
    let m := ((new (.withCells 1) 1).run ops).1
    m.page.filter (fun piece => piece matches .opening _ | .closing _) =
      [.opening ⟨1⟩, .opening ⟨2⟩, .closing ⟨2⟩, .closing ⟨1⟩] := by
  decide +kernel

end Manager

end WidgetSync
