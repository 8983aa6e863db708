/-!
# Binary parts of floating-point numbers

A finite number of double precision is a sign, a mantissa and a power of two, read off its bits.
All exact questions about such numbers (is it whole, what are its digits, does it equal an integer)
are asked about these parts.
-/

namespace LetFun

/-- The number `± mantissa * 2 ^ exponent`. -/
structure Binary where
  negative : Bool
  mantissa : Nat
  exponent : Int
deriving DecidableEq, Repr

namespace Binary

def ofFloat? (x : Float) : Option Binary :=
  let bits : Nat := x.toBits.toNat
  let negative : Bool := (bits >>> 63) = 1
  let power : Nat := (bits >>> 52) % 2048
  let fraction : Nat := bits % (1 <<< 52)
  if power = 2047 then none
  else if power = 0 then some ⟨negative, fraction, -1074⟩
  else some ⟨negative, fraction + (1 <<< 52), power - 1075⟩

/-- The absolute value as a quotient of natural numbers; the divisor is a power of two. -/
def quotient (b : Binary) : Nat × Nat :=
  if 0 ≤ b.exponent then (b.mantissa <<< b.exponent.toNat, 1)
  else (b.mantissa, 1 <<< (-b.exponent).toNat)

def toInt? (b : Binary) : Option Int :=
  let (num, den) := b.quotient
  if num % den = 0 then
    some (if b.negative then -(num / den : Nat) else (num / den : Nat))
  else
    none

end Binary

end LetFun
