import LetFun.Json
import LetFun.Number.Integer
import LetFun.Parsed
/-!
# Reading JSON text

The grammar of JSON, and with it the words `NaN`, `Infinity` and `-Infinity`. An integer has at most
`digitLimit` digits, and arrays and objects nest only as deep as the reader has room for. Each
error knows the rest of the text from the fault on, from which line, column and offset are counted.
-/

namespace LetFun.Json

inductive Problem where
  | value
  | key
  | colon
  | comma
  | extraData
  | unterminated
  | control
  | escape
  | unicodeEscape
  | byteOrderMark
deriving DecidableEq, Repr

def Problem.message : Problem → String
  | .value => "Expecting value"
  | .key => "Expecting property name enclosed in double quotes"
  | .colon => "Expecting ':' delimiter"
  | .comma => "Expecting ',' delimiter"
  | .extraData => "Extra data"
  | .unterminated => "Unterminated string starting at"
  | .control => "Invalid control character at"
  | .escape => "Invalid \\escape"
  | .unicodeEscape => "Invalid \\uXXXX escape"
  | .byteOrderMark => "Unexpected UTF-8 BOM (decode using utf-8-sig)"

/-- Why a text is not read as JSON. `rest` is the text from the fault on. -/
inductive ReadError where
  | malformed (problem : Problem) (rest : List Char)
  | tooManyDigits (count : Nat)
  | tooDeep
deriving DecidableEq, Repr

def place (text rest : List Char) : Nat × Nat × Nat :=
  let before := text.take (text.length - rest.length)
  (before.count '\n' + 1, (before.reverse.takeWhile (· ≠ '\n')).length + 1, before.length)

def malformedMessage (text : List Char) (problem : Problem) (rest : List Char) : String :=
  let (line, column, offset) := place text rest
  problem.message ++ s!": line {line} column {column} (char {offset})"

def isSpace (c : Char) : Bool :=
  c = ' ' || c = '\t' || c = '\n' || c = '\r'

def skip (cs : List Char) : List Char :=
  cs.dropWhile isSpace

/-- Skipping space leaves at most the whole text. -/
theorem length_skip_le (cs : List Char) : (skip cs).length ≤ cs.length :=
  (List.dropWhile_sublist _).length_le

/-! ## Strings -/

def escaped? : Char → Option Char
  | '\x22' => some '\x22'
  | '\\' => some '\\'
  | '/' => some '/'
  | 'b' => some '\x08'
  | 'f' => some '\x0c'
  | 'n' => some '\n'
  | 'r' => some '\r'
  | 't' => some '\t'
  | _ => none

def prepend (p : CodePoint) (later : Except ReadError (Text × List Char)) :
    Except ReadError (Text × List Char) :=
  later.map fun (text, after) => (p :: text, after)

theorem exists_of_prepend {p : CodePoint} {later : Except ReadError (Text × List Char)}
    {text : Text} {after : List Char} (h : prepend p later = .ok (text, after)) :
    ∃ t, later = .ok (t, after) := by
  cases later with
  | error e => simp [prepend, Except.map] at h
  | ok r =>
    simp only [prepend, Except.map, Except.ok.injEq, Prod.mk.injEq] at h
    exact ⟨r.1, by rw [← h.2]⟩

/-- Reads the code points of a string up to its closing quote. `opening` is the text from the
opening quote on, the place of a string that does not end. -/
def stringBody (opening : List Char) : List Char → Except ReadError (Text × List Char)
  | [] => .error (.malformed .unterminated opening)
  | '\x22' :: rest => .ok ([], rest)
  | ['\\'] => .error (.malformed .unterminated opening)
  | '\\' :: 'u' :: a :: b :: c :: d :: e :: rest =>
    match Hex.ofDigits? [a, b, c, d] with
    | none => .error (.malformed .unicodeEscape ('u' :: a :: b :: c :: d :: e :: rest))
    | some n => prepend (CodePoint.ofNat n) (stringBody opening (e :: rest))
  | '\\' :: 'u' :: rest => .error (.malformed .unicodeEscape ('u' :: rest))
  | '\\' :: c :: rest =>
    match escaped? c with
    | none => .error (.malformed .escape ('\\' :: c :: rest))
    | some plain => prepend (.scalar plain) (stringBody opening rest)
  | c :: rest =>
    if c < ' ' then .error (.malformed .control (c :: rest))
    else prepend (.scalar c) (stringBody opening rest)

/-- A string ends with a quote, so its rest is shorter. -/
theorem length_stringBody_lt {opening cs after : List Char} {text : Text}
    (h : stringBody opening cs = .ok (text, after)) : after.length < cs.length := by
  fun_induction stringBody opening cs generalizing text after with
  | case1 => simp at h
  | case2 rest =>
    simp only [Except.ok.injEq, Prod.mk.injEq] at h
    simp [h.2]
  | case3 => simp at h
  | case4 => simp at h
  | case5 a b c d e rest n hn ih =>
    obtain ⟨t, ht⟩ := exists_of_prepend h
    have := ih ht
    simp only [List.length_cons] at this ⊢
    omega
  | case6 => simp at h
  | case7 => simp at h
  | case8 c rest _ _ plain hc ih =>
    obtain ⟨t, ht⟩ := exists_of_prepend h
    have := ih ht
    simp only [List.length_cons]
    omega
  | case9 => simp at h
  | case10 c rest _ _ _ _ _ hc ih =>
    obtain ⟨t, ht⟩ := exists_of_prepend h
    have := ih ht
    simp only [List.length_cons]
    omega

def readString (opening cs : List Char) : Except ReadError (Parsed Char Text cs.length) :=
  match h : stringBody opening cs with
  | .error e => .error e
  | .ok (text, after) => .ok ⟨CodePoint.pairUp text, after, length_stringBody_lt h⟩

/-! ## Numbers and words -/

/-- The digits of a whole number at the front: a zero alone, or digits that do not start with
zero. -/
def wholeDigits : List Char → List Char
  | '0' :: _ => ['0']
  | cs => cs.takeWhile Char.isDigit

def fractionDigits : List Char → List Char
  | '.' :: rest => rest.takeWhile Char.isDigit
  | _ => []

def exponentPart : List Char → List Char
  | [] => []
  | c :: rest =>
    let sign := rest.takeWhile fun s => s = '+' || s = '-'
    let digits := (rest.drop sign.length).takeWhile Char.isDigit
    if (c = 'e' ∨ c = 'E') ∧ sign.length ≤ 1 ∧ digits ≠ [] then sign ++ digits else []

def afterPart (part cs : List Char) : List Char :=
  if part.isEmpty then cs else cs.drop (part.length + 1)

def exponentValue (part : List Char) : Int :=
  let (negative, digits) := splitSign part
  withSign negative (ofDigits digits)

/-- The number with the given parts: an integer when it has neither fraction nor exponent. -/
def numberOf (negative : Bool) (whole fraction exponent : List Char) : Except ReadError Json :=
  if fraction.isEmpty && exponent.isEmpty then
    if digitLimit < whole.length then .error (.tooManyDigits whole.length)
    else .ok (.integer (withSign negative (ofDigits whole)))
  else
    .ok (.float (Decimal.ofDigits negative whole fraction (exponentValue exponent)).toFloat)

def splitMinus : List Char → Bool × List Char
  | '-' :: rest => (true, rest)
  | cs => (false, cs)

theorem length_splitMinus_le (cs : List Char) : (splitMinus cs).2.length ≤ cs.length := by
  unfold splitMinus
  split <;> simp

theorem length_wholeDigits_le (cs : List Char) : (wholeDigits cs).length ≤ cs.length := by
  unfold wholeDigits
  split
  · simp
  · exact (List.takeWhile_sublist _).length_le

theorem length_afterPart_le (part cs : List Char) : (afterPart part cs).length ≤ cs.length := by
  unfold afterPart
  split <;> simp

def readNumber (cs : List Char) : Except ReadError (Parsed Char Json cs.length) :=
  let signed := splitMinus cs
  let whole := wholeDigits signed.2
  if hw : whole.length = 0 then .error (.malformed .value cs)
  else
    let afterWhole := signed.2.drop whole.length
    let fraction := fractionDigits afterWhole
    let afterFraction := afterPart fraction afterWhole
    let exponent := exponentPart afterFraction
    let rest := afterPart exponent afterFraction
    (numberOf signed.1 whole fraction exponent).map fun v => ⟨v, rest, by
      have hs : signed.2.length ≤ cs.length := length_splitMinus_le cs
      have hl : whole.length ≤ signed.2.length := length_wholeDigits_le signed.2
      have hf : afterFraction.length ≤ afterWhole.length := length_afterPart_le _ _
      have hr : rest.length ≤ afterFraction.length := length_afterPart_le _ _
      have ha : afterWhole.length = signed.2.length - whole.length := List.length_drop
      omega⟩

def words : List (List Char × Json) :=
  [("null".toList, .null), ("true".toList, .bool true), ("false".toList, .bool false),
   ("NaN".toList, .float (0.0 / 0.0)), ("Infinity".toList, .float (1.0 / 0.0)),
   ("-Infinity".toList, .float (-1.0 / 0.0))]

def dropWord? : (word cs : List Char) → Option (List Char)
  | [], cs => some cs
  | _ :: _, [] => none
  | w :: word, c :: cs => if w = c then dropWord? word cs else none

theorem length_of_dropWord? {word cs rest : List Char} (h : dropWord? word cs = some rest) :
    word.length + rest.length = cs.length := by
  fun_induction dropWord? word cs with
  | case1 cs => simp_all
  | case2 => simp at h
  | case3 w word cs ih => simp [← ih h]; omega
  | case4 => simp at h

def readPlain (cs : List Char) : Except ReadError (Parsed Char Json cs.length) :=
  match h : words.findSome? fun (word, v) => (dropWord? word cs).map (v, ·) with
  | some (v, rest) => .ok ⟨v, rest, by
      obtain ⟨⟨word, w⟩, hmem, hdrop⟩ := List.exists_of_findSome?_eq_some h
      obtain ⟨r, hr, he⟩ := Option.map_eq_some_iff.1 hdrop
      have hlen := length_of_dropWord? hr
      obtain ⟨rfl, rfl⟩ := Prod.mk.inj he
      have hpos : 0 < word.length := by
        simp only [words, List.mem_cons, Prod.mk.injEq, List.not_mem_nil, or_false] at hmem
        rcases hmem with h | h | h | h | h | h <;> rw [h.1] <;> decide
      omega⟩
  | none => readNumber cs

/-! ## Values -/

def enter : Nat → Except ReadError Nat
  | 0 => .error .tooDeep
  | room + 1 => .ok room

def readKey : (cs : List Char) → Except ReadError (Parsed Char Text cs.length)
  | '\x22' :: rest => (readString ('\x22' :: rest) rest).map fun t => t.widen (by simp)
  | cs => .error (.malformed .key cs)

mutual

def readValue (room : Nat) (cs : List Char) : Except ReadError (Parsed Char Json cs.length) :=
  match cs with
  | '\x22' :: rest => do
    let t ← readString ('\x22' :: rest) rest
    return (t.map .string).widen (by simp)
  | '\x7b' :: rest => do
    let inner ← enter room
    have hskip := length_skip_le rest
    match h : skip rest with
    | '\x7d' :: after => return ⟨.object [], after, by simp [h] at hskip ⊢; omega⟩
    | _ => do
      let members ← readMembers inner (skip rest)
      -- Of two members with one key, the later counts.
      return (members.map (.object ∘ ofPairs)).widen (by simp; omega)
  | '[' :: rest => do
    let inner ← enter room
    have hskip := length_skip_le rest
    match h : skip rest with
    | ']' :: after => return ⟨.array [], after, by simp [h] at hskip ⊢; omega⟩
    | _ => do
      let items ← readItems inner (skip rest)
      return (items.map .array).widen (by simp; omega)
  | cs => readPlain cs
termination_by (cs.length, 0)

def readItems (room : Nat) (cs : List Char) :
    Except ReadError (Parsed Char (List Json) cs.length) := do
  let item ← readValue room cs
  have hitem := item.lt_bound
  have hskip := length_skip_le item.rest
  match h : skip item.rest with
  | ']' :: after => return ⟨[item.value], after, by simp [h] at hskip; omega⟩
  | ',' :: after => do
    have hafter := length_skip_le after
    have hshort : after.length < cs.length := by simp [h] at hskip; omega
    let later ← readItems room (skip after)
    return (later.map (item.value :: ·)).widen (by omega)
  | rest => .error (.malformed .comma rest)
termination_by (cs.length, 1)

def readMember (room : Nat) (cs : List Char) :
    Except ReadError (Parsed Char (Text × Json) cs.length) := do
  let key ← readKey cs
  have hkey := key.lt_bound
  have hskip := length_skip_le key.rest
  match h : skip key.rest with
  | ':' :: after => do
    have hafter := length_skip_le after
    have hshort : after.length < cs.length := by simp [h] at hskip; omega
    let item ← readValue room (skip after)
    return (item.map (key.value, ·)).widen (by omega)
  | rest => .error (.malformed .colon rest)
termination_by (cs.length, 0)

def readMembers (room : Nat) (cs : List Char) :
    Except ReadError (Parsed Char (List (Text × Json)) cs.length) := do
  let member ← readMember room cs
  have hmember := member.lt_bound
  have hskip := length_skip_le member.rest
  match h : skip member.rest with
  | '\x7d' :: after => return ⟨[member.value], after, by simp [h] at hskip; omega⟩
  | ',' :: after => do
    have hafter := length_skip_le after
    have hshort : after.length < cs.length := by simp [h] at hskip; omega
    let later ← readMembers room (skip after)
    return (later.map (member.value :: ·)).widen (by omega)
  | rest => .error (.malformed .comma rest)
termination_by (cs.length, 1)

end

/-- Reads a whole text as one value, with room for `room` arrays and objects inside one another. -/
def read (room : Nat) (text : List Char) : Except ReadError Json :=
  if text.head? = some '\ufeff' then .error (.malformed .byteOrderMark text)
  else do
    let v ← readValue room (skip text)
    match skip v.rest with
    | [] => return v.value
    | rest => .error (.malformed .extraData rest)

end LetFun.Json
