import WidgetSync.Decimal.Double

/-! JSON documents as they are written: the members of an object keep their order and their repetitions. -/
namespace WidgetSync

/-- Whole numbers of 64 bits, signed or unsigned, stay exact; every other number is a double. -/
inductive Number where
  | int (value : Int) (inRange : -0x8000000000000000 ≤ value ∧ value < 0x10000000000000000)
  | double (value : Double)
  deriving DecidableEq

namespace Number

def ofInt? (i : Int) : Option Number :=
  if h : -0x8000000000000000 ≤ i ∧ i < 0x10000000000000000 then some (.int i h) else none

def ofInt64 (i : Int64) : Number :=
  .int i.toInt ⟨i.le_toInt, by have := i.toInt_lt; omega⟩

/-- The 64-bit signed number, if this is one. -/
def asInt64? : Number → Option Int64
  | .int i _ => if i < 0x8000000000000000 then some (Int64.ofInt i) else none
  | .double _ => none

/-- The 64-bit unsigned number, if this is one. -/
def asWord? : Number → Option Nat
  | .int i _ => if 0 ≤ i then some i.toNat else none
  | .double _ => none

end Number

inductive Json where
  | null
  | bool (value : Bool)
  | num (value : Number)
  | str (value : String)
  | arr (items : List Json)
  | obj (members : List (String × Json))

namespace Json

instance : Inhabited Json := ⟨.null⟩

mutual

def decEq : (a b : Json) → Decidable (a = b)
  | .null, .null => isTrue rfl
  | .bool x, .bool y => decidable_of_iff (x = y) (by simp)
  | .num x, .num y => decidable_of_iff (x = y) (by simp)
  | .str x, .str y => decidable_of_iff (x = y) (by simp)
  | .arr xs, .arr ys =>
    match decEqItems xs ys with
    | isTrue h => isTrue (by rw [h])
    | isFalse h => isFalse (by simpa using h)
  | .obj xs, .obj ys =>
    match decEqMembers xs ys with
    | isTrue h => isTrue (by rw [h])
    | isFalse h => isFalse (by simpa using h)
  | .null, .bool _ | .null, .num _ | .null, .str _ | .null, .arr _ | .null, .obj _
  | .bool _, .null | .bool _, .num _ | .bool _, .str _ | .bool _, .arr _ | .bool _, .obj _
  | .num _, .null | .num _, .bool _ | .num _, .str _ | .num _, .arr _ | .num _, .obj _
  | .str _, .null | .str _, .bool _ | .str _, .num _ | .str _, .arr _ | .str _, .obj _
  | .arr _, .null | .arr _, .bool _ | .arr _, .num _ | .arr _, .str _ | .arr _, .obj _
  | .obj _, .null | .obj _, .bool _ | .obj _, .num _ | .obj _, .str _ | .obj _, .arr _ => isFalse (by simp)
termination_by structural a => a

def decEqItems : (xs ys : List Json) → Decidable (xs = ys)
  | [], [] => isTrue rfl
  | x :: xs, y :: ys =>
    match decEq x y, decEqItems xs ys with
    | isTrue h, isTrue h' => isTrue (by rw [h, h'])
    | isFalse h, _ => isFalse (by simp [h])
    | _, isFalse h => isFalse (by simp [h])
  | [], _ :: _ | _ :: _, [] => isFalse (by simp)
termination_by structural xs => xs

def decEqMembers : (xs ys : List (String × Json)) → Decidable (xs = ys)
  | [], [] => isTrue rfl
  | (k, x) :: xs, (l, y) :: ys =>
    match String.decEq k l, decEq x y, decEqMembers xs ys with
    | isTrue h, isTrue h', isTrue h'' => isTrue (by rw [h, h', h''])
    | isFalse h, _, _ => isFalse (by simp [h])
    | _, isFalse h, _ => isFalse (by simp [h])
    | _, _, isFalse h => isFalse (by simp [h])
  | [], _ :: _ | _ :: _, [] => isFalse (by simp)
termination_by structural xs => xs

end

instance : DecidableEq Json := decEq

/-- The value of the last member named `key`. -/
def member? (key : String) : Json → Option Json
  | .obj members => (members.reverse.find? (·.1 = key)).map (·.2)
  | _ => none

mutual

/-- How many containers are nested, this one included. -/
def depth : Json → Nat
  | .null | .bool _ | .num _ | .str _ => 0
  | .arr items => itemsDepth items + 1
  | .obj members => membersDepth members + 1
termination_by structural j => j

def itemsDepth : List Json → Nat
  | [] => 0
  | j :: rest => max j.depth (itemsDepth rest)
termination_by structural j => j

def membersDepth : List (String × Json) → Nat
  | [] => 0
  | (_, j) :: rest => max j.depth (membersDepth rest)
termination_by structural j => j

end

end Json

end WidgetSync
