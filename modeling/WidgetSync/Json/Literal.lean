import WidgetSync.Json.Basic
import WidgetSync.Text.Integer

/-! Number literals of JSON and the numbers they denote.
A literal's digits fill a 64-bit significand; the value of a literal that is no exact whole number is that
significand, as a double, scaled by one power of ten. -/
namespace WidgetSync.Json

/-- A number literal taken apart. -/
structure Literal where
  negative : Bool
  whole : List Char
  /-- The digits after the point, or nothing if there is no point. -/
  fraction : List Char
  /-- Sign and digits of the exponent. -/
  exponent : Option (Bool × List Char)
  deriving DecidableEq

namespace Literal

def isDigit (c : Char) : Bool := '0' ≤ c && c ≤ '9'

/-- The digits at the front, and what follows them. -/
def spanDigits (cs : List Char) : List Char × List Char := (cs.takeWhile isDigit, cs.dropWhile isDigit)

/-- The digits before the point: a zero alone, or digits that do not start with one. -/
def whole? (cs : List Char) : Option (List Char × List Char) :=
  match spanDigits cs with
  | ([], _) => none
  | ('0' :: _ :: _, _) => none
  | found => some found

def fraction? : List Char → Option (List Char × List Char)
  | '.' :: cs =>
    match spanDigits cs with
    | ([], _) => none
    | found => some found
  | cs => some ([], cs)

def exponentDigits? (negative : Bool) (cs : List Char) :
    Option (Option (Bool × List Char) × List Char) :=
  match spanDigits cs with
  | ([], _) => none
  | (digits, rest) => some (some (negative, digits), rest)

/-- What follows the letter of the exponent. -/
def signedExponent? : List Char → Option (Option (Bool × List Char) × List Char)
  | '-' :: cs => exponentDigits? true cs
  | '+' :: cs => exponentDigits? false cs
  | cs => exponentDigits? false cs

def exponent? : List Char → Option (Option (Bool × List Char) × List Char)
  | 'e' :: cs | 'E' :: cs => signedExponent? cs
  | cs => some (none, cs)

def unsigned? (negative : Bool) (cs : List Char) : Option (Literal × List Char) := do
  let (whole, cs) ← whole? cs
  let (fraction, cs) ← fraction? cs
  let (exponent, cs) ← exponent? cs
  pure (⟨negative, whole, fraction, exponent⟩, cs)

/-- Reads a literal from the front of the text. -/
def read? : List Char → Option (Literal × List Char)
  | '-' :: cs => unsigned? true cs
  | cs => unsigned? false cs

/-- Appends digits to a significand of 64 bits, and counts how many fitted. -/
def accumulate (significand : Nat) : List Char → Nat × Nat
  | [] => (significand, 0)
  | c :: rest =>
    let next := 10 * significand + (c.toNat - '0'.toNat)
    if next < 0x10000000000000000 then
      let (total, count) := accumulate next rest
      (total, count + 1)
    else (significand, 0)

def powerOfTen (n : Nat) : Float := Float.ofScientific 1 false n

/-- Divides by `10^n`, in steps of `10^308`. -/
def scaleDown : (fuel : Nat) → Float → Nat → Float
  | 0, x, _ => x
  | fuel + 1, x, n =>
    if n ≤ 308 then x / powerOfTen n
    else if x == 0 then x
    else scaleDown fuel (x / powerOfTen 308) (n - 308)

/-- The magnitude `significand · 10^exponent` as a double, unless it is too large for one. -/
def magnitude? (significand : Nat) (exponent : Int) : Option Float :=
  let x := significand.toUInt64.toFloat
  match exponent with
  | .ofNat n =>
    if n ≤ 308 then
      let y := x * powerOfTen n
      if y.isInf then none else some y
    else if significand = 0 then some x
    else none
  | .negSucc n => some (scaleDown 8 x (n + 1))

/-- The significand, and the exponent without the written one. -/
def scaled (l : Literal) : Nat × Int :=
  let (whole, taken) := accumulate 0 l.whole
  let (significand, places) := accumulate whole l.fraction
  (significand, ((l.whole.length - taken : Nat) : Int) - (places : Int))

def signed (negative : Bool) (x : Float) : Option Number :=
  (Double.ofFloat? (if negative then -x else x)).map .double

def toDouble? (l : Literal) : Option Number :=
  let (significand, exponent) := l.scaled
  match l.exponent with
  | none => magnitude? significand exponent >>= signed l.negative
  | some (down, digits) =>
    match Text.digitsFrom? 0 digits with
    | none => none
    | some written =>
      if written < 0x80000000 then
        magnitude? significand (exponent + if down then -(written : Int) else written)
          >>= signed l.negative
      else if significand ≠ 0 ∧ !down then none
      else signed l.negative 0

/-- A literal without fraction and exponent is exact if 64 bits hold it; the negative zero is a double. -/
def toInt? (l : Literal) : Option Number :=
  match l.fraction, l.exponent, Text.digitsFrom? 0 l.whole with
  | [], none, some n =>
    if !l.negative then Number.ofInt? n else if n = 0 then none else Number.ofInt? (-n)
  | _, _, _ => none

def toNumber? (l : Literal) : Option Number := l.toInt? <|> l.toDouble?

end Literal

end WidgetSync.Json
