import WidgetSync.Element.Basic
import WidgetSync.Text.Blank

/-! Selectors of elements, and the walk over the descendants that one selects. -/
namespace WidgetSync

/-- A tag, if it matters, and classes that all have to be there. -/
structure Selector where
  tag : Option String
  classes : List String
  deriving DecidableEq

namespace Selector

/-- The parts between the dots; there is one more part than dots. -/
def splitDots : List Char → List (List Char)
  | [] => [[]]
  | c :: cs =>
    if c = '.' then [] :: splitDots cs
    else
      match splitDots cs with
      | [] => [[c]]
      | part :: parts => (c :: part) :: parts

/-- Reads `tag.class.class`. Without a tag, or with `*` for it, any tag will do. -/
def ofString (text : String) : Selector :=
  match splitDots (Text.trim text.toList) with
  | [] => ⟨none, []⟩
  | tag :: classes =>
    { tag := if tag = [] ∨ tag = ['*'] then none else some (String.ofList tag)
      classes := (classes.filter (· ≠ [])).map String.ofList }

/-- A selector that asks for nothing selects nothing. -/
def selects (s : Selector) (f : Face) : Bool :=
  (s.tag.isSome || !s.classes.isEmpty) && s.tag.all (· = f.tag) && s.classes.all f.hasClass

end Selector

namespace Element

mutual

/-- The first selected node, in pre-order. -/
def firstMatch? (s : Selector) : Element → Option Element
  | .node face children =>
    if s.selects face then some (.node face children) else firstMatchIn? s children
termination_by structural e => e

def firstMatchIn? (s : Selector) : List Element → Option Element
  | [] => none
  | e :: rest => (firstMatch? s e).or (firstMatchIn? s rest)
termination_by structural es => es

end

/-- The first selected descendant. -/
def find? (e : Element) (selector : String) : Option Element :=
  firstMatchIn? (.ofString selector) e.children

mutual

/-- Visits the selected nodes in pre-order. The visitor sees a node before anything below it changes, and gives it
new styles. -/
def visit {σ : Type} (s : Selector) (visitor : σ → Element → σ × OrdMap String String) (state : σ) :
    Element → σ × Element
  | .node face children =>
    if s.selects face then
      let (state, styles) := visitor state (.node face children)
      let (state, children) := visitAll s visitor state children
      (state, .node { face with styles } children)
    else
      let (state, children) := visitAll s visitor state children
      (state, .node face children)
termination_by structural e => e

def visitAll {σ : Type} (s : Selector) (visitor : σ → Element → σ × OrdMap String String) (state : σ) :
    List Element → σ × List Element
  | [] => (state, [])
  | e :: rest =>
    let (state, e) := visit s visitor state e
    let (state, rest) := visitAll s visitor state rest
    (state, e :: rest)
termination_by structural es => es

end

/-- Visits every selected descendant, which does not include the element itself, and counts them. -/
def forEachMatch {σ : Type} (e : Element) (selector : String)
    (visitor : σ → Element → σ × OrdMap String String) (state : σ) : σ × Element × Nat :=
  let counting := fun (s : σ × Nat) (e : Element) =>
    let (state, styles) := visitor s.1 e
    ((state, s.2 + 1), styles)
  let ((state, count), children) := visitAll (.ofString selector) counting (state, 0) e.children
  (state, .node e.face children, count)

/-- Changes the styles of every selected descendant. -/
def restyleMatches (e : Element) (selector : String)
    (restyle : OrdMap String String → OrdMap String String) : Element :=
  (e.forEachMatch selector (fun (_ : Unit) e => ((), restyle e.face.styles)) ()).2.1

end Element

end WidgetSync
