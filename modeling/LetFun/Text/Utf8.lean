/-!
# UTF-8

Decoding bytes as UTF-8, and encoding characters. A sequence that is not well formed is described by
its first byte, by how many of its bytes were still acceptable, and by why no character comes of
them.
-/

namespace LetFun.Utf8

inductive Reason where
  | invalidStart
  | invalidContinuation
  | unexpectedEnd
deriving DecidableEq, Repr

def Reason.message : Reason → String
  | .invalidStart => "invalid start byte"
  | .invalidContinuation => "invalid continuation byte"
  | .unexpectedEnd => "unexpected end of data"

/-- The first place where bytes are not well formed: the offset and value of the first byte, and how
many bytes, at least one, are to blame. -/
structure DecodeError where
  offset : Nat
  byte : UInt8
  count : Nat
  reason : Reason
deriving DecidableEq, Repr

def hexByte (b : UInt8) : String :=
  String.ofList [Nat.digitChar (b.toNat / 16), Nat.digitChar (b.toNat % 16)]

def DecodeError.message (e : DecodeError) : String :=
  if e.count = 1 then
    s!"'utf-8' codec can't decode byte 0x{hexByte e.byte} in position {e.offset}: " ++
      e.reason.message
  else
    s!"'utf-8' codec can't decode bytes in position {e.offset}-{e.offset + e.count - 1}: " ++
      e.reason.message

/-- How a character goes on after its first byte: the payload of that byte, the number of further
bytes, and the least and the greatest value of the next one. -/
structure Lead where
  payload : Nat
  owed : Nat
  low : Nat
  high : Nat

def lead? (b : UInt8) : Option Lead :=
  let n := b.toNat
  if n < 0x80 then some ⟨n, 0, 0, 0⟩
  else if n < 0xc2 then none
  else if n < 0xe0 then some ⟨n % 0x20, 1, 0x80, 0xbf⟩
  else if n = 0xe0 then some ⟨0, 2, 0xa0, 0xbf⟩
  else if n = 0xed then some ⟨0xd, 2, 0x80, 0x9f⟩
  else if n < 0xf0 then some ⟨n % 0x10, 2, 0x80, 0xbf⟩
  else if n = 0xf0 then some ⟨0, 3, 0x90, 0xbf⟩
  else if n < 0xf4 then some ⟨n % 8, 3, 0x80, 0xbf⟩
  else if n = 0xf4 then some ⟨4, 3, 0x80, 0x8f⟩
  else none

structure Unfinished where
  first : UInt8
  count : Nat
  payload : Nat
  owed : Nat
  low : Nat
  high : Nat

/-- The characters of bytes that start at `offset`, where `open?` is a character that the bytes
right before them left unfinished. -/
def decodeFrom (offset : Nat) (open? : Option Unfinished) :
    List UInt8 → Except DecodeError (List Char)
  | [] =>
    match open? with
    | none => .ok []
    | some p => .error ⟨offset - p.count, p.first, p.count, .unexpectedEnd⟩
  | b :: rest =>
    match open? with
    | none =>
      match lead? b with
      | none => .error ⟨offset, b, 1, .invalidStart⟩
      | some ⟨payload, 0, _, _⟩ => do
        let later ← decodeFrom (offset + 1) none rest
        return Char.ofNat payload :: later
      | some ⟨payload, owed, low, high⟩ =>
        decodeFrom (offset + 1) (some ⟨b, 1, payload, owed, low, high⟩) rest
    | some p =>
      if p.low ≤ b.toNat ∧ b.toNat ≤ p.high then
        let payload := p.payload * 64 + b.toNat % 64
        if p.owed = 1 then do
          let later ← decodeFrom (offset + 1) none rest
          return Char.ofNat payload :: later
        else
          -- Only the second byte has bounds of its own.
          let next : Unfinished := ⟨p.first, p.count + 1, payload, p.owed - 1, 0x80, 0xbf⟩
          decodeFrom (offset + 1) (some next) rest
      else
        .error ⟨offset - p.count, p.first, p.count, .invalidContinuation⟩

def decode (bytes : List UInt8) : Except DecodeError String :=
  (decodeFrom 0 none bytes).map String.ofList

def encode (s : String) : List UInt8 :=
  s.toList.flatMap String.utf8EncodeChar

/-- Text with every line end, a carriage return or one followed by a line feed, made a line feed. -/
def unifyLineEnds : List Char → List Char
  | [] => []
  | '\r' :: '\n' :: rest => '\n' :: unifyLineEnds rest
  | '\r' :: rest => '\n' :: unifyLineEnds rest
  | c :: rest => c :: unifyLineEnds rest

def decodeLines (bytes : List UInt8) : Except DecodeError String :=
  (decode bytes).map fun s => String.ofList (unifyLineEnds s.toList)

end LetFun.Utf8
