import WidgetSync.Text.Unprintable

/-! Diagnostic quoting: a text between double quotes in which every unprintable character is spelled out. -/
namespace WidgetSync.Text

def hexDigits (n : Nat) : List Char := Nat.toDigits 16 n

/-- One character as it stands between the quotes. -/
def escapeDiagnostic (c : Char) : List Char :=
  match c with
  | '\x00' => ['\\', '0']
  | '\t' => ['\\', 't']
  | '\r' => ['\\', 'r']
  | '\n' => ['\\', 'n']
  | '"' => ['\\', '"']
  | '\\' => ['\\', '\\']
  | c => if isUnprintable c then ['\\', 'u', '\x7b'] ++ hexDigits c.toNat ++ ['\x7d'] else [c]

def quoteDiagnostic (s : String) : String :=
  String.ofList ('"' :: s.toList.flatMap escapeDiagnostic ++ ['"'])

end WidgetSync.Text
