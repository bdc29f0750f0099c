import WidgetSync.Json.Basic
import WidgetSync.OrdMap

/-! JSON values: documents in which every object has each key once, in ascending order.
Every document denotes one value, in which the last of several members with one key counts (`Value.ofJson`). -/
namespace WidgetSync

namespace Json

mutual

/-- Every object within has strictly ascending keys. -/
def Canonical : Json → Prop
  | .null | .bool _ | .num _ | .str _ => True
  | .arr items => CanonicalItems items
  | .obj members => members.Pairwise (fun p q => compare p.1 q.1 = .lt) ∧ CanonicalMembers members
termination_by structural j => j

def CanonicalItems : List Json → Prop
  | [] => True
  | j :: rest => j.Canonical ∧ CanonicalItems rest
termination_by structural j => j

def CanonicalMembers : List (String × Json) → Prop
  | [] => True
  | (_, j) :: rest => j.Canonical ∧ CanonicalMembers rest
termination_by structural j => j

end

mutual

/-- Sorts the members of every object within; of several with one key the last stays. -/
def normalize : Json → Json
  | .null => .null
  | .bool b => .bool b
  | .num n => .num n
  | .str s => .str s
  | .arr items => .arr (normalizeItems items)
  | .obj members => .obj (normalizeMembers [] members)
termination_by structural j => j

def normalizeItems : List Json → List Json
  | [] => []
  | j :: rest => j.normalize :: normalizeItems rest
termination_by structural j => j

/-- Adds the members to those in `acc`. -/
def normalizeMembers (acc : List (String × Json)) : List (String × Json) → List (String × Json)
  | [] => acc
  | (k, j) :: rest => normalizeMembers (Entries.insert k j.normalize acc) rest
termination_by structural j => j

end

theorem canonicalItems_iff {items : List Json} :
    CanonicalItems items ↔ ∀ j ∈ items, j.Canonical := by
  induction items with
  | nil => simp [CanonicalItems]
  | cons j rest ih => simp [CanonicalItems, ih]

theorem canonicalMembers_iff {members : List (String × Json)} :
    CanonicalMembers members ↔ ∀ p ∈ members, p.2.Canonical := by
  induction members with
  | nil => simp [CanonicalMembers]
  | cons p rest ih => obtain ⟨k, j⟩ := p; simp [CanonicalMembers, ih]

theorem canonical_insert {k : String} {j : Json} {acc : List (String × Json)} (hj : j.Canonical)
    (h : (Json.obj acc).Canonical) : (Json.obj (Entries.insert k j acc)).Canonical := by
  simp only [Canonical, canonicalMembers_iff] at h ⊢
  refine ⟨Entries.insert_ascending h.1, fun p hp => ?_⟩
  rcases Entries.mem_insert hp with rfl | hp
  · exact hj
  · exact h.2 p hp

mutual

theorem canonical_normalize : (j : Json) → j.normalize.Canonical
  | .null | .bool _ | .num _ | .str _ => trivial
  | .arr items => canonical_normalizeItems items
  | .obj members => canonical_normalizeMembers [] members ⟨.nil, trivial⟩
termination_by structural j => j

theorem canonical_normalizeItems : (items : List Json) → CanonicalItems (normalizeItems items)
  | [] => trivial
  | j :: rest => ⟨j.canonical_normalize, canonical_normalizeItems rest⟩
termination_by structural j => j

theorem canonical_normalizeMembers (acc : List (String × Json)) :
    (members : List (String × Json)) → (Json.obj acc).Canonical →
      (Json.obj (normalizeMembers acc members)).Canonical
  | [], h => h
  | (_, j) :: rest, h =>
    canonical_normalizeMembers _ rest (canonical_insert j.canonical_normalize h)
termination_by structural j => j

end

end Json

/-- A JSON value. -/
structure Value where
  json : Json
  canonical : json.Canonical

namespace Value

@[ext] theorem ext {v w : Value} (h : v.json = w.json) : v = w := by
  cases v; cases w; simpa using h

instance : DecidableEq Value := fun v w =>
  decidable_of_iff (v.json = w.json) ⟨ext, fun h => h ▸ rfl⟩

/-- The value that a document denotes. -/
def ofJson (j : Json) : Value := ⟨j.normalize, j.canonical_normalize⟩

def null : Value := ⟨.null, trivial⟩

instance : Inhabited Value := ⟨null⟩

def ofBool (b : Bool) : Value := ⟨.bool b, trivial⟩

def ofInt64 (i : Int64) : Value := ⟨.num (.ofInt64 i), trivial⟩

def ofString (s : String) : Value := ⟨.str s, trivial⟩

/-- The members of a map of values. -/
def members (m : OrdMap String Value) : List (String × Json) := m.entries.map fun p => (p.1, p.2.json)

def ofObject (m : OrdMap String Value) : Value where
  json := .obj (members m)
  canonical := ⟨List.pairwise_map.mpr m.ascending, Json.canonicalMembers_iff.mpr fun p hp => by
    obtain ⟨q, _, rfl⟩ := List.mem_map.mp hp
    exact q.2.canonical⟩

def asBool? (v : Value) : Option Bool :=
  match v.json with
  | .bool b => some b
  | _ => none

def asInt64? (v : Value) : Option Int64 :=
  match v.json with
  | .num n => n.asInt64?
  | _ => none

def asString? (v : Value) : Option String :=
  match v.json with
  | .str s => some s
  | _ => none

/-- The members of an object as a map. -/
def toObject (ms : List (String × Json)) (h : (Json.obj ms).Canonical) : OrdMap String Value where
  entries := ms.pmap (fun p hp => (p.1, ⟨p.2, hp⟩)) (Json.canonicalMembers_iff.mp h.2)
  ascending := h.1.pmap _ fun _ _ _ _ hpq => hpq

def asObject? : Value → Option (OrdMap String Value)
  | ⟨.obj ms, h⟩ => some (toObject ms h)
  | _ => none

@[simp] theorem asBool?_ofBool (b : Bool) : (ofBool b).asBool? = some b := rfl

end Value

end WidgetSync
