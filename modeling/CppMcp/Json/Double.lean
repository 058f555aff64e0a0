import Mathlib.Algebra.Ring.Int.Defs
import Mathlib.Algebra.Ring.Nat
import Mathlib.Data.Nat.Log

namespace CppMcp

/-- A `double`, by its IEEE-754 bits. -/
structure Double where
  bits : UInt64
deriving DecidableEq, Repr

/-- `m / 2^s` to the nearest integer, ties to the even one. -/
def roundHalfEven (m s : Nat) : Nat :=
  let quotient := m >>> s
  let rest := m % 2 ^ s
  if 2 ^ s < 2 * rest ∨ (2 * rest = 2 ^ s ∧ quotient % 2 = 1) then quotient + 1 else quotient

/-- `static_cast<double>` of a 64-bit integer. A significand that rounds up to
    `2^53` carries into the exponent field by the addition. -/
def Double.ofInt (n : Int) : Double :=
  let sign := if n < 0 then 2 ^ 63 else 0
  let m := n.natAbs
  if m = 0 then ⟨0⟩
  else
    let e := m.log2
    let significand := if e ≤ 52 then m <<< (52 - e) else roundHalfEven m (e - 52)
    ⟨UInt64.ofNat (sign + ((e + 1023) <<< 52) + (significand - 2 ^ 52))⟩

/-- Truncation towards zero, as `static_cast` to an integer type that can hold it. -/
def Double.trunc (d : Double) : Int :=
  let exponent := (d.bits.toNat >>> 52) % 2048
  let significand := 2 ^ 52 + d.bits.toNat % 2 ^ 52
  let magnitude :=
    if exponent = 0 then 0
    else if 1075 ≤ exponent then significand <<< (exponent - 1075)
    else significand >>> (1075 - exponent)
  if 2 ^ 63 ≤ d.bits.toNat then -(magnitude : Int) else magnitude

def Double.isNan (d : Double) : Bool :=
  (d.bits.toNat >>> 52) % 2048 == 2047 && d.bits.toNat % 2 ^ 52 != 0

/-- `operator==` of two doubles: a NaN equals nothing, and the two zeros equal each other. -/
def Double.equals (a b : Double) : Bool :=
  !a.isNan && !b.isNan &&
    (a.bits == b.bits || (a.bits.toNat % 2 ^ 63 == 0 && b.bits.toNat % 2 ^ 63 == 0))

example : Double.ofInt 3 = ⟨0x4008000000000000⟩ := by decide

end CppMcp
