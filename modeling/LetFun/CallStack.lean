/-!
# The call stack

The parser, the writer and the reader of JSON text and the readers of YAML documents call themselves
for what is nested, until the call stack is used up. How deep they get depends on the frames that
are open when they start and on what else they call on the way, so the depths are parameters of
which only bounds are known.
-/

namespace LetFun

/-- How deep the recursive parts of the program get before the call stack is used up. -/
class CallStack where
  /-- How many function bodies the parser may have open. -/
  bodies : Nat
  /-- How many function bodies may be nested in a tree that is turned into JSON values. -/
  dumped : Nat
  /-- How many arrays and objects may be open in JSON text that is written. -/
  written : Nat
  /-- How many arrays and objects may be open in JSON text that is read. -/
  read : Nat
  /-- How many collections may be open in a YAML document that is read. -/
  composed : Nat
  /-- How many nodes of a YAML document may lead to one another before one that leads nowhere. -/
  followed : Nat
  bodies_ge : 210 ≤ bodies
  bodies_lt : bodies < 500
  dumped_ge : 150 ≤ dumped
  written_ge : 903 ≤ written
  written_le_read : written ≤ read
  read_lt : read < 1000

/-- The depths of calls from near the bottom of a stack of a thousand frames. -/
instance CallStack.usual : CallStack where
  bodies := 240
  dumped := 255
  written := 993
  read := 994
  composed := 490
  followed := 980
  bodies_ge := by decide
  bodies_lt := by decide
  dumped_ge := by decide
  written_ge := by decide
  written_le_read := by decide
  read_lt := by decide

end LetFun
