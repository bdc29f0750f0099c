import WidgetSync.Json.Basic
import WidgetSync.Decimal.Layout

/-! Writing JSON, compact or indented by two blanks a level. -/
namespace WidgetSync.Json

/-- Doubles are positional from `10^-5` up to `10^16`, always show that they are no whole numbers, and a decimal tie
goes to the even digit. -/
def doubleLayout : Decimal.Layout := ⟨some (-5, 16), true, .toEven⟩

namespace Writer

def number : Number → List Char
  | .int i _ => Text.ofInt i
  | .double d => d.text doubleLayout

/-- The last two of four hexadecimal digits. -/
def hexPair (n : Nat) : List Char := [Nat.digitChar (n / 16), Nat.digitChar (n % 16)]

/-- Quotes, backslashes and controls are escaped, and all else stands for itself. -/
def escape (c : Char) : List Char :=
  match c with
  | '"' => ['\\', '"']
  | '\\' => ['\\', '\\']
  | '\x08' => ['\\', 'b']
  | '\t' => ['\\', 't']
  | '\n' => ['\\', 'n']
  | '\x0c' => ['\\', 'f']
  | '\r' => ['\\', 'r']
  | c => if c < ' ' then ['\\', 'u', '0', '0'] ++ hexPair c.toNat else [c]

def string (s : String) : List Char := '"' :: (s.toList.flatMap escape ++ ['"'])

def bool (b : Bool) : List Char := if b then ['t', 'r', 'u', 'e'] else ['f', 'a', 'l', 's', 'e']

mutual

def value : Json → List Char
  | .null => ['n', 'u', 'l', 'l']
  | .bool b => bool b
  | .num n => number n
  | .str s => string s
  | .arr [] => ['[', ']']
  | .arr (item :: items) => '[' :: (value item ++ moreItems items)
  | .obj [] => ['\x7b', '\x7d']
  | .obj ((k, v) :: members) => '\x7b' :: (string k ++ ':' :: (value v ++ moreMembers members))
termination_by structural j => j

/-- The items after the first, and the bracket. -/
def moreItems : List Json → List Char
  | [] => [']']
  | item :: items => ',' :: (value item ++ moreItems items)
termination_by structural j => j

/-- The members after the first, and the brace. -/
def moreMembers : List (String × Json) → List Char
  | [] => ['\x7d']
  | (k, v) :: members => ',' :: (string k ++ ':' :: (value v ++ moreMembers members))
termination_by structural j => j

end

/-- A new line at the given level. -/
def newLine (level : Nat) : List Char := '\n' :: List.replicate (2 * level) ' '

mutual

def prettyValue (level : Nat) : Json → List Char
  | .null => ['n', 'u', 'l', 'l']
  | .bool b => bool b
  | .num n => number n
  | .str s => string s
  | .arr [] => ['[', ']']
  | .arr (item :: items) =>
    '[' :: (newLine (level + 1) ++ prettyValue (level + 1) item ++ morePrettyItems level items)
  | .obj [] => ['\x7b', '\x7d']
  | .obj ((k, v) :: members) =>
    '\x7b' :: (newLine (level + 1) ++ string k ++ ':' :: ' ' :: prettyValue (level + 1) v
      ++ morePrettyMembers level members)
termination_by structural j => j

def morePrettyItems (level : Nat) : List Json → List Char
  | [] => newLine level ++ [']']
  | item :: items =>
    ',' :: (newLine (level + 1) ++ prettyValue (level + 1) item ++ morePrettyItems level items)
termination_by structural j => j

def morePrettyMembers (level : Nat) : List (String × Json) → List Char
  | [] => newLine level ++ ['\x7d']
  | (k, v) :: members =>
    ',' :: (newLine (level + 1) ++ string k ++ ':' :: ' ' :: prettyValue (level + 1) v
      ++ morePrettyMembers level members)
termination_by structural j => j

end

end Writer

/-- The text without blanks. -/
def compact (j : Json) : String := String.ofList (Writer.value j)

/-- The text with one item or member a line. -/
def pretty (j : Json) : String := String.ofList (Writer.prettyValue 0 j)

end WidgetSync.Json
