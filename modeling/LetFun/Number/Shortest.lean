import LetFun.Number.Binary
/-!
# Shortest decimal digits

The decimal digits of a positive number of double precision: of all decimals that round to it, one
with the fewest digits, and of those the nearest. A decimal of `n` digits is a point of a grid; if
any point of the grid rounds to the number, one of the two neighbours of the number does.
-/

namespace LetFun

/-- The decimal `0.d₁d₂… * 10 ^ point` with the given digits. -/
structure Digits where
  digits : List Char
  point : Int
deriving DecidableEq, Repr

namespace Digits

def count (n : Nat) : Nat :=
  if n = 0 then 0 else count (n / 10) + 1

/-- The position of the decimal point of a positive quotient: the least `k` such that the quotient
is below `10 ^ k`. -/
def pointOf (num den : Nat) : Int :=
  if den ≤ num then count (num / den) else 1 - count ((den - 1) / num)

def scale (num den : Nat) (e : Int) : Nat × Nat :=
  if 0 ≤ e then (num, den * Nat.pow 10 e.toNat) else (num * Nat.pow 10 (-e).toNat, den)

/-- The distance from a number to the next below and to the next above, in quarters of its last
bit, halved; the ends belong to the interval of decimals that round to it when `closed`. -/
structure Interval where
  below : Nat
  above : Nat
  closed : Bool

/-- The decimals that round to a number. Below a power of two the numbers lie twice as dense. -/
def Interval.around (b : Binary) : Interval :=
  ⟨if b.mantissa = 1 <<< 52 ∧ b.exponent ≠ -1074 then 1 else 2, 2, b.mantissa % 2 = 0⟩

/-- Whether `c * unit` lies in the interval around `4 * mantissa`, all times `den`. -/
def Interval.contains (i : Interval) (mantissa unit den c : Nat) : Bool :=
  let x := c * unit
  let low := (4 * mantissa - i.below) * den
  let high := (4 * mantissa + i.above) * den
  if i.closed then low ≤ x && x ≤ high else low < x && x < high

/-- The neighbour of a number on the grid of decimals with unit `10 ^ e` that rounds to it. If both
do it is the nearer one, and the even one if they are equally near. -/
def neighbour? (b : Binary) (e : Int) : Option Nat :=
  let interval := Interval.around b
  -- In quarters of the last bit the number is `4 * mantissa`, and `10 ^ e` is `unit / den`.
  let (num, base) := Binary.quotient ⟨false, 1, b.exponent - 2⟩
  let (den, unit) := scale num base e
  let low := 4 * b.mantissa * den / unit
  let lowFits := interval.contains b.mantissa unit den low
  let highFits := interval.contains b.mantissa unit den (low + 1)
  let gap := 2 * (4 * b.mantissa * den - low * unit)
  let preferLow := gap < unit || gap = unit && low % 2 = 0
  if lowFits && (preferLow || !highFits) then some low
  else if highFits then some (low + 1)
  else none

def strip (n : Nat) : List Char :=
  ((Nat.toDigits 10 n).reverse.dropWhile (· = '0')).reverse

def search (b : Binary) (k : Int) : (tries used : Nat) → Digits
  | 0, _ => ⟨[], 0⟩
  | tries + 1, used =>
    match neighbour? b (k - (used + 1)) with
    | some c => ⟨strip c, k - (used + 1) + (Nat.toDigits 10 c).length⟩
    | none => search b k tries (used + 1)

/-- The shortest digits of the absolute value of a number other than zero; seventeen always
suffice. -/
def shortest (b : Binary) : Digits :=
  let (num, den) := b.quotient
  search b (pointOf num den) 17 0

end Digits

end LetFun
