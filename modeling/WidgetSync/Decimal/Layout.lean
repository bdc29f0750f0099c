import WidgetSync.Decimal.Shortest
import WidgetSync.Text.Integer

/-! How a decimal is laid out as text: positional or with an exponent. -/
namespace WidgetSync.Decimal

structure Layout where
  /-- The exponents of the leading digit that are written positionally, as a half-open range; all without one. -/
  positional : Option (Int × Int)
  /-- A whole number keeps a fraction of one zero. -/
  keepsFraction : Bool
  tie : Tie

/-- The exponent of the leading digit. -/
def leading (d : Decimal) : Int := d.exponent + (Nat.toDigits 10 d.digits).length - 1

def positionalText (keepsFraction : Bool) (d : Decimal) : List Char :=
  let digits := Nat.toDigits 10 d.digits
  let point := d.exponent + digits.length
  if 0 ≤ d.exponent then
    digits ++ List.replicate d.exponent.toNat '0' ++ (if keepsFraction then ['.', '0'] else [])
  else if 0 < point then
    digits.take point.toNat ++ '.' :: digits.drop point.toNat
  else
    '0' :: '.' :: List.replicate (-point).toNat '0' ++ digits

/-- One digit, the others as a fraction, and the exponent with its sign. -/
def scientificText (d : Decimal) : List Char :=
  let fraction := (Nat.toDigits 10 d.digits).drop 1
  (Nat.toDigits 10 d.digits).take 1 ++ (if fraction.isEmpty then [] else '.' :: fraction) ++
    'e' :: (if 0 ≤ d.leading then ['+'] else []) ++ Text.ofInt d.leading

def text (layout : Layout) (d : Decimal) : List Char :=
  match layout.positional with
  | none => d.positionalText layout.keepsFraction
  | some (low, high) =>
    if low ≤ d.leading ∧ d.leading < high then d.positionalText layout.keepsFraction
    else d.scientificText

end WidgetSync.Decimal

namespace WidgetSync

def Double.text (layout : Decimal.Layout) (d : Double) : List Char :=
  (if d.isNegative then ['-'] else []) ++ (Decimal.shortest layout.tie d).text layout

end WidgetSync
