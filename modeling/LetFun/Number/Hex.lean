/-!
# Hexadecimal digits

Writing a number in a fixed count of lower-case hexadecimal digits, and reading digits of either
case back.
-/

namespace LetFun.Hex

/-- The last `width` hexadecimal digits of a number, in lower case. -/
def digits : (width n : Nat) → List Char
  | 0, _ => []
  | width + 1, n => digits width (n / 16) ++ [Nat.digitChar (n % 16)]

def value? (c : Char) : Option Nat :=
  if '0' ≤ c ∧ c ≤ '9' then some (c.toNat - 48)
  else if 'a' ≤ c ∧ c ≤ 'f' then some (c.toNat - 87)
  else if 'A' ≤ c ∧ c ≤ 'F' then some (c.toNat - 55)
  else none

def ofDigits? (cs : List Char) : Option Nat :=
  cs.foldl (fun n c => do return 16 * (← n) + (← value? c)) (some 0)

end LetFun.Hex
