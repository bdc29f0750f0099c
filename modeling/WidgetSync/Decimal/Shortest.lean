import WidgetSync.Decimal.Double

/-! The shortest decimal that reads back as a given double.
The reals that round to the double form an interval. The first decimal grid with a point in it wins, and of two
points on it the nearer one. -/
namespace WidgetSync

/-- The number `digits · 10^exponent`. -/
structure Decimal where
  digits : Nat
  exponent : Int
  deriving DecidableEq, Repr

/-- Which of two equally near decimals is taken. -/
inductive Tie where
  | toEven
  | up
  deriving DecidableEq, Repr

namespace Decimal

/-- The magnitude of a double and the ends of its rounding interval, as numerators over one denominator. -/
structure Interval where
  low : Nat
  value : Nat
  high : Nat
  unit : Nat
  closed : Bool

def interval (d : Double) : Interval :=
  let scale := Nat.pow 2 d.exponent.toNat
  { low := (4 * d.mantissa - (if d.isStep then 1 else 2)) * scale
    value := 4 * d.mantissa * scale
    high := (4 * d.mantissa + 2) * scale
    unit := 4 * Nat.pow 2 (-d.exponent).toNat
    closed := d.mantissa % 2 = 0 }

/-- How many powers of ten a positive value below one lies under one tenth. -/
def leadingZeros (value unit : Nat) : (fuel : Nat) → Nat
  | 0 => 0
  | fuel + 1 => if unit ≤ 10 * value then 0 else leadingZeros (10 * value) unit fuel + 1

/-- The least `k` with `value / unit < 10^k`, for a positive value. -/
def magnitude (value unit : Nat) : Int :=
  if unit ≤ value then (Nat.toDigits 10 (value / unit)).length
  else -(leadingZeros value unit 400 : Int)

/-- The point `n · 10^exponent` lies in the interval. -/
def Interval.holds (i : Interval) (n : Nat) (exponent : Int) : Bool :=
  let point := n * Nat.pow 10 exponent.toNat * i.unit
  let scale := Nat.pow 10 (-exponent).toNat
  if i.closed then i.low * scale ≤ point && point ≤ i.high * scale
  else i.low * scale < point && point < i.high * scale

/-- The point of the grid `10^exponent` that is nearest to the value among those in the interval. -/
def Interval.nearest? (i : Interval) (tie : Tie) (exponent : Int) : Option Decimal :=
  let scaled := i.value * Nat.pow 10 (-exponent).toNat
  let step := i.unit * Nat.pow 10 exponent.toNat
  let below := scaled / step
  let above := below + 1
  match i.holds below exponent, i.holds above exponent with
  | false, false => none
  | true, false => some ⟨below, exponent⟩
  | false, true => some ⟨above, exponent⟩
  | true, true =>
    let past := 2 * (scaled - below * step)
    let takeBelow := past < step || (past = step && tie = .toEven && below % 2 = 0)
    some ⟨if takeBelow then below else above, exponent⟩

/-- The first grid with a hit, from `count` grids that start at `exponent` and get ten times finer. -/
def Interval.firstGrid? (i : Interval) (tie : Tie) (exponent : Int) : (count : Nat) → Option Decimal
  | 0 => none
  | count + 1 => i.nearest? tie exponent <|> i.firstGrid? tie (exponent - 1) count

/-- Moves trailing zeros of the digits, at most `fuel` of them, into the exponent. -/
def stripZeros : (fuel : Nat) → Decimal → Decimal
  | 0, d => d
  | fuel + 1, d =>
    if d.digits % 10 = 0 ∧ d.digits ≠ 0 then stripZeros fuel ⟨d.digits / 10, d.exponent + 1⟩ else d

/-- The shortest decimal of the magnitude of a double; seventeen digits always suffice. -/
def shortest (tie : Tie) (d : Double) : Decimal :=
  if d.mantissa = 0 then ⟨0, 0⟩
  else
    let i := interval d
    stripZeros 20 (((i.firstGrid? tie (magnitude i.value i.unit - 1) 17)).getD ⟨0, 0⟩)

end Decimal

end WidgetSync
