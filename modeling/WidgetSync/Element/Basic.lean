import WidgetSync.OrdMap

/-! Elements of the page: a tree in which each node has a face of its own. -/
namespace WidgetSync

/-- What a node shows, its children apart. -/
structure Face where
  tag : String
  /-- Classes in the order in which they were added, each once. -/
  classes : List String
  attributes : OrdMap String String
  styles : OrdMap String String
  /-- Markup before the children. -/
  html : String
  isHidden : Bool
  deriving DecidableEq

namespace Face

def new (tag : String) : Face := ⟨tag, [], ∅, ∅, "", false⟩

def hasClass (f : Face) (c : String) : Bool := f.classes.contains c

def addClass (f : Face) (c : String) : Face :=
  if f.hasClass c then f else { f with classes := f.classes ++ [c] }

def removeClass (f : Face) (c : String) : Face := { f with classes := f.classes.filter (· ≠ c) }

def toggleClass (f : Face) (c : String) (on : Bool) : Face :=
  if on then f.addClass c else f.removeClass c

def setAttribute (f : Face) (name value : String) : Face :=
  { f with attributes := f.attributes.insert name value }

def removeAttribute (f : Face) (name : String) : Face :=
  { f with attributes := f.attributes.erase name }

/-- A flag is an attribute that is its own value, or absent. -/
def setFlag (f : Face) (name : String) (on : Bool) : Face :=
  if on then f.setAttribute name name else f.removeAttribute name

def setStyle (f : Face) (property value : String) : Face :=
  { f with styles := f.styles.insert property value }

def setHtml (f : Face) (html : String) : Face := { f with html }

def setHidden (f : Face) (isHidden : Bool) : Face := { f with isHidden }

end Face

inductive Element where
  | node (face : Face) (children : List Element)

namespace Element

mutual

def decEq : (a b : Element) → Decidable (a = b)
  | .node f xs, .node g ys =>
    match decidable_of_iff (f = g) Iff.rfl, decEqAll xs ys with
    | isTrue h, isTrue h' => isTrue (by rw [h, h'])
    | isFalse h, _ => isFalse (by simp [h])
    | _, isFalse h => isFalse (by simp [h])
termination_by structural a => a

def decEqAll : (xs ys : List Element) → Decidable (xs = ys)
  | [], [] => isTrue rfl
  | x :: xs, y :: ys =>
    match decEq x y, decEqAll xs ys with
    | isTrue h, isTrue h' => isTrue (by rw [h, h'])
    | isFalse h, _ => isFalse (by simp [h])
    | _, isFalse h => isFalse (by simp [h])
  | [], _ :: _ | _ :: _, [] => isFalse (by simp)
termination_by structural xs => xs

end

instance : DecidableEq Element := decEq

def face : Element → Face
  | .node face _ => face

def children : Element → List Element
  | .node _ children => children

instance : Inhabited Element := ⟨.node (Face.new "div") []⟩

/-- An element without children. -/
def new (tag : String) : Element := .node (Face.new tag) []

def withClass (e : Element) (c : String) : Element := .node (e.face.addClass c) e.children

def withAttribute (e : Element) (name value : String) : Element :=
  .node (e.face.setAttribute name value) e.children

def withChild (e child : Element) : Element := .node e.face (e.children ++ [child])

/-- Changes the node itself. -/
def modifyFace (e : Element) (f : Face → Face) : Element := .node (f e.face) e.children

/-- Changes the child at `index`, if there is one. -/
def modifyChild (e : Element) (index : Nat) (f : Element → Element) : Element :=
  .node e.face (e.children.modify index f)

/-- The element that the child indices lead to. -/
def at? (e : Element) : List Nat → Option Element
  | [] => some e
  | i :: path => e.children[i]? >>= (·.at? path)

/-- Changes the element that the child indices lead to. -/
def modifyAt (e : Element) (f : Element → Element) : List Nat → Element
  | [] => f e
  | i :: path => e.modifyChild i (·.modifyAt f path)

end Element

end WidgetSync
