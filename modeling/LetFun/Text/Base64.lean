/-!
# Base64

Decoding text that carries bytes in base 64. Characters that are no digits are passed over, and
decoding ends where padding completes a group of four.
-/

namespace LetFun.Base64

def value? (c : Char) : Option Nat :=
  if c.isUpper then some (c.toNat - 65)
  else if c.isLower then some (c.toNat - 71)
  else if c.isDigit then some (c.toNat + 4)
  else if c = '+' then some 62
  else if c = '/' then some 63
  else none

/-- The bytes of the rest of a text, where `count` digits of the current group have been read whose
last bits, not yet part of a byte, are `bits`, and `pads` signs of padding followed them. The group
may not be left incomplete. -/
def decodeFrom (count bits pads : Nat) : List Char → Option (List UInt8)
  | [] => if count = 0 then some [] else none
  | '=' :: rest =>
    if 2 ≤ count ∧ 4 ≤ count + pads + 1 then some []
    else decodeFrom count bits (if 2 ≤ count then pads + 1 else pads) rest
  | c :: rest =>
    match value? c with
    | none => decodeFrom count bits pads rest
    | some v =>
      match count with
      | 0 => decodeFrom 1 v 0 rest
      | 1 => (decodeFrom 2 (v % 16) 0 rest).map ((bits * 4 + v / 16).toUInt8 :: ·)
      | 2 => (decodeFrom 3 (v % 4) 0 rest).map ((bits * 16 + v / 4).toUInt8 :: ·)
      | _ => (decodeFrom 0 0 0 rest).map ((bits * 64 + v).toUInt8 :: ·)

def decode (cs : List Char) : Option (List UInt8) :=
  decodeFrom 0 0 0 cs

end LetFun.Base64
