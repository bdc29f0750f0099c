/-! Finite doubles by their bit pattern.
A pattern stands for `(-1)^sign · mantissa · 2^exponent`, which is exact, so texts can be made without rounding. -/
namespace WidgetSync

/-- A finite double. Two doubles are equal when their patterns are, so `-0.0` differs from `0.0`. -/
structure Double where
  bits : UInt64
  finite : bits.toNat / 0x10000000000000 % 0x800 ≠ 0x7FF
  deriving DecidableEq

namespace Double

def ofBits? (bits : UInt64) : Option Double :=
  if h : bits.toNat / 0x10000000000000 % 0x800 ≠ 0x7FF then some ⟨bits, h⟩ else none

def ofFloat? (x : Float) : Option Double := ofBits? x.toBits

def toFloat (d : Double) : Float := Float.ofBits d.bits

def isNegative (d : Double) : Bool := 0x8000000000000000 ≤ d.bits.toNat

/-- The exponent as it is stored. -/
def biased (d : Double) : Nat := d.bits.toNat / 0x10000000000000 % 0x800

/-- The fraction as it is stored. -/
def fraction (d : Double) : Nat := d.bits.toNat % 0x10000000000000

def mantissa (d : Double) : Nat :=
  if d.biased = 0 then d.fraction else 0x10000000000000 + d.fraction

def exponent (d : Double) : Int := max d.biased 1 - 1075

/-- The next smaller magnitude is half as far away as the next larger one. -/
def isStep (d : Double) : Bool := d.fraction = 0 && 1 < d.biased

end Double

end WidgetSync
