import WidgetSync.Model

/-! A model in one line, for diagnostics. -/
namespace WidgetSync

namespace Json

mutual

/-- The value with its kinds spelled out. -/
def diagnostic : Json → String
  | .null => "Null"
  | .bool b => "Bool(" ++ String.ofList (Writer.bool b) ++ ")"
  | .num n => "Number(" ++ String.ofList (Writer.number n) ++ ")"
  | .str s => "String(" ++ Text.quoteDiagnostic s ++ ")"
  | .arr items => "Array [" ++ ", ".intercalate (diagnosticItems items) ++ "]"
  | .obj members => "Object \x7b" ++ ", ".intercalate (diagnosticMembers members) ++ "\x7d"
termination_by structural j => j

def diagnosticItems : List Json → List String
  | [] => []
  | j :: rest => j.diagnostic :: diagnosticItems rest
termination_by structural j => j

def diagnosticMembers : List (String × Json) → List String
  | [] => []
  | (k, j) :: rest => (Text.quoteDiagnostic k ++ ": " ++ j.diagnostic) :: diagnosticMembers rest
termination_by structural j => j

end

end Json

def Attributes.diagnostic (attributes : Attributes) : String :=
  "Attributes(\x7b" ++ ", ".intercalate (Json.diagnosticMembers (Value.members attributes)) ++ "\x7d)"

def Model.summary (m : Model) : String :=
  "WidgetModel \x7b id: CommId(" ++ Text.quoteDiagnostic m.id.name ++ "), type_name: "
    ++ Text.quoteDiagnostic m.typeName ++ ", attributes: " ++ m.attributes.diagnostic
    ++ ", pending_msgs: " ++ String.ofList (Text.ofNat m.pending) ++ ", msg_buffer: "
    ++ (match m.buffer with
      | none => "None"
      | some buffer => "Some(" ++ Attributes.diagnostic buffer ++ ")")
    ++ " \x7d"

end WidgetSync
