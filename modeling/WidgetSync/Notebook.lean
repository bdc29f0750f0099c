import WidgetSync.Address

/-! The document: a list of cells, each with a widget area and outputs, and an area for views without a cell. -/
namespace WidgetSync

/-- The standalone views of one group. -/
structure WidgetArea where
  views : List ViewId
  isShown : Bool
  deriving DecidableEq

namespace WidgetArea

def empty : WidgetArea := ⟨[], false⟩

def append (a : WidgetArea) (view : ViewId) : WidgetArea := { a with views := a.views ++ [view] }

def remove (a : WidgetArea) (view : ViewId) : WidgetArea :=
  { a with views := a.views.filter (· ≠ view) }

def reveal (a : WidgetArea) : WidgetArea := { a with isShown := true }

end WidgetArea

structure Cell where
  /-- The request that executed the cell last. -/
  lastMessage : Option String
  area : WidgetArea
  outputs : List String
  deriving DecidableEq

namespace Cell

def empty : Cell := ⟨none, .empty, []⟩

def appendOutput (c : Cell) (text : String) : Cell := { c with outputs := c.outputs ++ [text] }

end Cell

structure Notebook where
  cells : List Cell
  selected : Option Nat
  detached : WidgetArea
  deriving DecidableEq

/-- An execution may not lie too far behind the last cell. -/
structure CellOutOfRange where
  index : Nat
  count : Nat
  deriving DecidableEq

def CellOutOfRange.message (e : CellOutOfRange) : String :=
  "cell index " ++ String.ofList (Text.ofNat e.index) ++ " is out of range for "
    ++ String.ofList (Text.ofNat e.count) ++ " cells"

namespace Notebook

/-- How many cells behind the last one an execution may add. -/
def maxNewCells : Nat := 64

/-- Empty cells, of which the first is selected. -/
def withCells (count : Nat) : Notebook where
  cells := List.replicate count .empty
  selected := if 0 < count then some 0 else none
  detached := .empty

def count (n : Notebook) : Nat := n.cells.length

/-- Selects a cell that exists. -/
def select (n : Notebook) (index : Nat) : Notebook :=
  if index < n.count then { n with selected := some index } else n

/-- The first cell that was last executed by the request. -/
def cellOfMessage? (n : Notebook) (message : String) : Option Nat :=
  n.cells.findIdx? (·.lastMessage = some message)

/-- The cells with empty ones after them, up to `count`. -/
def padded (n : Notebook) (count : Nat) : List Cell :=
  n.cells ++ List.replicate (count - n.count) .empty

/-- Records that a request executed a cell, which is selected, and added if need be. -/
def execute (n : Notebook) (index : Nat) (message : String) : Except CellOutOfRange Notebook :=
  if n.count + maxNewCells ≤ index then .error ⟨index, n.count⟩
  else
    .ok { n with
      cells := (n.padded (index + 1)).modify index fun c => { c with lastMessage := some message }
      selected := some index }

/-- The area of a group; groups without a cell of their own share the detached one. -/
def area (n : Notebook) : GroupKey → WidgetArea
  | .cell index => (n.cells[index]?.map (·.area)).getD n.detached
  | .detached => n.detached

def modifyArea (n : Notebook) (group : GroupKey) (f : WidgetArea → WidgetArea) : Notebook :=
  match group with
  | .cell index =>
    if index < n.count then
      { n with cells := n.cells.modify index fun c => { c with area := f c.area } }
    else { n with detached := f n.detached }
  | .detached => { n with detached := f n.detached }

/-- Adds output to a cell that exists. -/
def appendOutput (n : Notebook) (index : Nat) (text : String) : Notebook :=
  { n with cells := n.cells.modify index (·.appendOutput text) }

end Notebook

end WidgetSync
