/-!
# Places in YAML text

A cursor is a place in a text with its offset, line and column, all counted from zero. Line breaks
are the line feed, the carriage return with or without a line feed after it, and the characters
U+0085, U+2028 and U+2029. No move of a cursor makes the rest longer.
-/

namespace LetFun.Yaml

def isBreak (c : Char) : Bool :=
  c = '\n' || c = '\r' || c = '\x85' || c = '\u2028' || c = '\u2029'

/-- Whether a word ends here: with a space, or with the line. -/
def endsWord (c? : Option Char) : Bool :=
  c?.all fun c => c = ' ' || isBreak c

/-- Whether an indicator ends here: with a space, a tab, or the line. -/
def endsIndicator (c? : Option Char) : Bool :=
  c?.all fun c => c = ' ' || c = '\t' || isBreak c

/-- A place in a text: what follows, and how it is counted. -/
structure Cursor where
  rest : List Char
  offset : Nat
  line : Nat
  column : Nat
deriving Repr

namespace Cursor

def start (text : List Char) : Cursor :=
  ⟨text, 0, 0, 0⟩

def peek (c : Cursor) : Option Char :=
  c.rest.head?

def peekAt (c : Cursor) (n : Nat) : Option Char :=
  c.rest[n]?

/-- The place after the next character. A carriage return before a line feed does not yet start a
line, and a byte order mark takes no column. -/
def next (c : Cursor) : Cursor :=
  match c.rest with
  | [] => c
  | ch :: rest =>
    if isBreak ch && !(ch = '\r' && rest.head? = some '\n') then
      ⟨rest, c.offset + 1, c.line + 1, 0⟩
    else
      ⟨rest, c.offset + 1, c.line, if ch = '\ufeff' then c.column else c.column + 1⟩

def advance (c : Cursor) : (n : Nat) → Cursor
  | 0 => c
  | n + 1 => c.next.advance n

def takeWhile (c : Cursor) (p : Char → Bool) : List Char × Cursor :=
  let taken := c.rest.takeWhile p
  (taken, c.advance taken.length)

def skipWhile (c : Cursor) (p : Char → Bool) : Cursor :=
  (c.takeWhile p).2

def skipSpaces (c : Cursor) : Cursor :=
  c.skipWhile (· = ' ')

def skipComment (c : Cursor) : Cursor :=
  if c.peek = some '#' then c.skipWhile fun ch => !isBreak ch else c

/-- The line break that stands here, and the place after it. All but U+2028 and U+2029 count as a
line feed. -/
def lineBreak? (c : Cursor) : Option (Char × Cursor) :=
  match c.rest with
  | '\r' :: '\n' :: _ => some ('\n', c.advance 2)
  | ch :: _ =>
    if ch = '\u2028' ∨ ch = '\u2029' then some (ch, c.next)
    else if isBreak ch then some ('\n', c.next)
    else none
  | [] => none

def atMarker (c : Cursor) : Bool :=
  (c.rest.take 3 = ['-', '-', '-'] || c.rest.take 3 = ['.', '.', '.']) && endsIndicator (c.peekAt 3)

/-- A cursor never moves back. -/
theorem length_next_le (c : Cursor) : c.next.rest.length ≤ c.rest.length := by
  obtain ⟨rest, offset, line, column⟩ := c
  cases rest with
  | nil => simp [next]
  | cons ch rest =>
    simp only [next]
    split <;> simp

/-- A cursor moves on where characters are left. -/
theorem length_next_lt {c : Cursor} (h : c.rest ≠ []) : c.next.rest.length < c.rest.length := by
  obtain ⟨rest, offset, line, column⟩ := c
  cases rest with
  | nil => simp at h
  | cons ch rest =>
    simp only [next]
    split <;> simp

theorem length_advance_le (c : Cursor) (n : Nat) : (c.advance n).rest.length ≤ c.rest.length := by
  induction n generalizing c with
  | zero => simp [advance]
  | succ n ih => exact Nat.le_trans (ih c.next) c.length_next_le

theorem length_skipWhile_le (c : Cursor) (p : Char → Bool) :
    (c.skipWhile p).rest.length ≤ c.rest.length :=
  c.length_advance_le _

/-- A line break has a character at least. -/
theorem length_lineBreak?_lt {c d : Cursor} {ch : Char} (h : c.lineBreak? = some (ch, d)) :
    d.rest.length < c.rest.length := by
  unfold lineBreak? at h
  split at h
  · next hr =>
    simp only [Option.some.injEq, Prod.mk.injEq] at h
    have hne : c.rest ≠ [] := by simp [hr]
    rw [← h.2]
    exact Nat.lt_of_le_of_lt (length_next_le _) (length_next_lt hne)
  · next ch' r _ hr =>
    have hne : c.rest ≠ [] := by simp [hr]
    split at h
    · simp only [Option.some.injEq, Prod.mk.injEq] at h
      rw [← h.2]
      exact length_next_lt hne
    · split at h
      · simp only [Option.some.injEq, Prod.mk.injEq] at h
        rw [← h.2]
        exact length_next_lt hne
      · simp at h
  · simp at h

end Cursor

end LetFun.Yaml
