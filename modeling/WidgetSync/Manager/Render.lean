import WidgetSync.Manager.Basic
import WidgetSync.Element.Html

/-! The markup of live views, areas and the document. -/
namespace WidgetSync.Manager

/-- The markup of a view and the views it hosts, to a depth of `fuel`. -/
def renderTree (m : Manager) : (fuel : Nat) → ViewId → String
  | 0, _ => ""
  | fuel + 1, id =>
    match m.views.get? id with
    | none => ""
    | some slot => slot.view.element.htmlWith (String.join (slot.view.children.map (m.renderTree fuel)))

/-- The markup of a view. No view is hosted deeper than there are views. -/
def renderView (m : Manager) (id : ViewId) : String := m.renderTree m.views.size id

/-- The markup of an area, empty while it is not shown. -/
def renderArea (m : Manager) (group : GroupKey) : String :=
  let area := m.notebook.area group
  if area.isShown then
    "<div class=\"widget-area\"><div class=\"widget-subarea\">"
      ++ String.join (area.views.map m.renderView) ++ "</div></div>"
  else ""

def line (text : String) : String := text ++ "\n"

/-- A line, unless there is nothing on it. -/
def lineOf (text : String) : String := if text = "" then "" else line text

/-- Cells by their number from `index` on: heading, widget area and outputs. -/
def renderCells (m : Manager) (index : Nat) : List Cell → String
  | [] => ""
  | cell :: rest =>
    line ("[cell " ++ String.ofList (Text.ofNat index) ++ "]") ++ lineOf (m.renderArea (.cell index))
      ++ String.join (cell.outputs.map line) ++ m.renderCells (index + 1) rest

def render (m : Manager) : String :=
  let detached := m.renderArea .detached
  m.renderCells 0 m.notebook.cells ++ (if detached = "" then "" else line "[detached]" ++ line detached)

end WidgetSync.Manager
