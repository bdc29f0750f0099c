import WidgetSync.Settings.Scalar
import WidgetSync.Json.Value
import WidgetSync.Json.Reader

/-! Settings in JSON. -/
namespace WidgetSync

namespace Tree

/-- Whole numbers without 64 signed bits to hold them count as decimals. -/
def ofNumber : Number → Tree
  | .int i _ => if i < 0x8000000000000000 then .int i else .float i.toNat.toUInt64.toFloat
  | .double d => .float d.toFloat

mutual

def ofJson : Json → Tree
  | .null => .nil
  | .bool b => .bool b
  | .num n => ofNumber n
  | .str s => .text s
  | .arr items => .list (ofItems items)
  | .obj members => .table (ofMembers members)
termination_by structural j => j

def ofItems : List Json → List Tree
  | [] => []
  | j :: rest => ofJson j :: ofItems rest
termination_by structural j => j

def ofMembers : List (String × Json) → List (String × Tree)
  | [] => []
  | (k, j) :: rest => (k, ofJson j) :: ofMembers rest
termination_by structural j => j

end

end Tree

/-- The entries of a text that holds one object. -/
def Json.readTable? (text : String) : Option (List (String × Tree)) :=
  match (Json.read? text).map Json.normalize with
  | some (.obj members) => some (Tree.ofMembers members)
  | _ => none

end WidgetSync
