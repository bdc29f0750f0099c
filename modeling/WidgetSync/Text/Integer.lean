/-! Decimal integers as people type them: an optional sign and ASCII digits, nothing else. -/
namespace WidgetSync.Text

def digit? (c : Char) : Option Nat :=
  if '0' ≤ c ∧ c ≤ '9' then some (c.toNat - '0'.toNat) else none

/-- The number written by the digits, after those already read into `acc`. -/
def digitsFrom? (acc : Nat) : List Char → Option Nat
  | [] => some acc
  | c :: rest => digit? c >>= fun d => digitsFrom? (10 * acc + d) rest

/-- At least one digit, and only digits. -/
def digits? (cs : List Char) : Option Nat :=
  if cs.isEmpty then none else digitsFrom? 0 cs

/-- Digits, with or without a plus sign. -/
def natural? : List Char → Option Nat
  | '+' :: cs => digits? cs
  | cs => digits? cs

/-- Digits, with or without a sign. -/
def integer? : List Char → Option Int
  | '-' :: cs => (digits? cs).map fun n => -(n : Int)
  | cs => (natural? cs).map Int.ofNat

/-- The 64-bit unsigned number that the text denotes. -/
def word? (cs : List Char) : Option Nat := (natural? cs).filter (· < 0x10000000000000000)

/-- The 64-bit signed number that the text denotes. -/
def int64? (cs : List Char) : Option Int64 :=
  ((integer? cs).filter fun i => -0x8000000000000000 ≤ i ∧ i < 0x8000000000000000).map Int64.ofInt

/-- The decimal text of a natural number. -/
def ofNat (n : Nat) : List Char := Nat.toDigits 10 n

/-- The decimal text of an integer. -/
def ofInt : Int → List Char
  | .ofNat n => ofNat n
  | .negSucc n => '-' :: ofNat (n + 1)

end WidgetSync.Text
