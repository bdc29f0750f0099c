import WidgetSync.Settings.Tree
import WidgetSync.Json.Literal

/-! Scalars written without quotes: truth values, whole numbers and decimals. -/
namespace WidgetSync.Tree

def lower (cs : List Char) : List Char := cs.map Char.toLower

/-- The double nearest to `digits · 10^exponent`. -/
def scientific (digits : List Char) (exponent : Int) : Float :=
  let m := (Text.digitsFrom? 0 digits).getD 0
  let magnitude := exponent + (Nat.toDigits 10 m).length
  if m = 0 ∨ magnitude < -400 then 0
  else if 400 < magnitude then 1 / 0
  else if 0 ≤ exponent then Float.ofScientific m false exponent.toNat
  else Float.ofScientific m true exponent.natAbs

/-- Digits with at most one point among them and perhaps an exponent. -/
def decimal? (cs : List Char) : Option Float :=
  let (whole, cs) := Json.Literal.spanDigits cs
  let (fraction, cs) :=
    match cs with
    | '.' :: cs => Json.Literal.spanDigits cs
    | cs => ([], cs)
  if whole.isEmpty ∧ fraction.isEmpty then none
  else
    match Json.Literal.exponent? cs with
    | some (none, []) => some (scientific (whole ++ fraction) (-fraction.length))
    | some (some (negative, digits), []) =>
      let e : Int := (Text.digitsFrom? 0 digits).getD 0
      some (scientific (whole ++ fraction) ((if negative then -e else e) - fraction.length))
    | _ => none

/-- A decimal, infinity or no number at all, by name. -/
def unsignedFloat? (cs : List Char) : Option Float :=
  match String.ofList (lower cs) with
  | "inf" | "infinity" => some (1 / 0)
  | "nan" => some (0 / 0)
  | _ => decimal? cs

def float? : List Char → Option Float
  | '-' :: cs => (unsignedFloat? cs).map (- ·)
  | '+' :: cs => unsignedFloat? cs
  | cs => unsignedFloat? cs

def signedWord? (cs : List Char) : Option Int := (Text.int64? cs).map Int64.toInt

/-- The most specific reading of a text: truth value, whole number, decimal, or just text. -/
def ofScalar (s : String) : Tree :=
  let cs := s.toList
  match String.ofList (lower cs) with
  | "true" => .bool true
  | "false" => .bool false
  | _ =>
    match signedWord? cs, float? cs with
    | some i, _ => .int i
    | none, some x => .float x
    | none, none => .text s

end WidgetSync.Tree
