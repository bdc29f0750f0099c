import WidgetSync.Text.Integer

/-! Settings as a tree of tables, with paths into it. Setting a table merges it into what is there; setting anything
else replaces what is there. -/
namespace WidgetSync

/-- The content of a settings file. -/
inductive Tree where
  | nil
  | bool (value : Bool)
  | int (value : Int)
  | float (value : Float)
  | text (value : String)
  | list (items : List Tree)
  | table (entries : List (String × Tree))

namespace Tree

instance : Inhabited Tree := ⟨.nil⟩

/-- The entries of a table; anything else counts as an empty one. -/
def entries : Tree → List (String × Tree)
  | .table entries => entries
  | _ => []

/-- The items of a list; anything else counts as an empty one. -/
def items : Tree → List Tree
  | .list items => items
  | _ => []

def get? (t : Tree) (key : String) : Option Tree := t.entries.lookup key

/-- Replaces the entry of a key, or adds one. -/
def putEntry (key : String) (value : Tree) : List (String × Tree) → List (String × Tree)
  | [] => [(key, value)]
  | (k, v) :: rest => if k = key then (key, value) :: rest else (k, v) :: putEntry key value rest

/-- Changes what stands at a key. What is no table becomes one. -/
def atKey (t : Tree) (key : String) (f : Tree → Tree) : Tree :=
  .table (putEntry key (f ((t.get? key).getD .nil)) t.entries)

/-- Changes what stands at an index, counted from the end if it is negative. What is no list becomes one, and gets
longer where it is too short. -/
def atIndex (t : Tree) (index : Int) (f : Tree → Tree) : Tree :=
  let items := t.items
  if 0 ≤ index then
    let padded := items ++ List.replicate (index.toNat + 1 - items.length) .nil
    .list (padded.modify index.toNat f)
  else
    let back := index.natAbs
    if back ≤ items.length then .list (items.modify (items.length - back) f)
    else .list ((List.replicate (back - items.length) Tree.nil ++ items).modify 0 f)

/-- One step of a path. -/
inductive Step where
  | key (name : String)
  | index (i : Int)
  deriving DecidableEq

/-- Changes what stands at the end of a path. -/
def atPath (f : Tree → Tree) : List Step → Tree → Tree
  | [], t => f t
  | .key name :: rest, t => t.atKey name (atPath f rest)
  | .index i :: rest, t => t.atIndex i (atPath f rest)

mutual

/-- Sets a value over what is there. An empty table changes nothing but an absent value. -/
def layOver (value old : Tree) : Tree :=
  match value with
  | .table entries =>
    mergeEntries entries <|
      match old with
      | .nil => .table []
      | old => old
  | value => value
termination_by structural value

def mergeEntries (incoming : List (String × Tree)) (t : Tree) : Tree :=
  match incoming with
  | [] => t
  | (key, value) :: rest => mergeEntries rest (t.atKey key (layOver value))
termination_by structural incoming

end

def isNameChar (c : Char) : Bool := c.isAlphanum || c = '_' || c = '-'

/-- A name at the front of a path. -/
def name? (cs : List Char) : Option (String × List Char) :=
  match cs.takeWhile isNameChar with
  | [] => none
  | name => some (String.ofList name, cs.dropWhile isNameChar)

/-- The number between brackets, and what follows it. -/
def bracketed? (cs : List Char) : Option (Int × List Char) :=
  match cs.dropWhile (· ≠ ']'), cs.takeWhile (· ≠ ']') with
  | ']' :: rest, '-' :: digits => (Text.digits? digits).map fun n => (-n, rest)
  | ']' :: rest, digits => (Text.digits? digits).map fun n => (n, rest)
  | _, _ => none

/-- The steps after the first name: names after points and numbers between brackets. -/
def steps? : (fuel : Nat) → List Char → Option (List Step)
  | _, [] => some []
  | fuel + 1, '.' :: cs => do
    let (name, cs) ← name? cs
    pure (.key name :: (← steps? fuel cs))
  | fuel + 1, '[' :: cs => do
    let (i, cs) ← bracketed? cs
    pure (.index i :: (← steps? fuel cs))
  | _, _ => none

/-- A path like `a.b[0]`; a key that is no path is a name as it stands. -/
def pathOf (key : String) : List Step :=
  let path := do
    let (name, cs) ← name? key.toList
    pure (Step.key name :: (← steps? cs.length cs))
  path.getD [.key key]

/-- Sets the entries of a source, whose keys are paths. -/
def merge (t : Tree) (source : List (String × Tree)) : Tree :=
  source.foldl (fun t p => atPath (layOver p.2) (pathOf p.1) t) t

end Tree

end WidgetSync
