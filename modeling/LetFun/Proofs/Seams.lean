import LetFun.Proofs.Moved
/-!
# Scanning one text behind another

Where no word goes on from one text to the next, the tokens of both together are those of the first
and then those of the second, with their offsets raised by the length of the first
(`tokenize_append`).
-/

namespace LetFun

def UnrecognizedCharacter.shift (k : Nat) (e : UnrecognizedCharacter) : UnrecognizedCharacter :=
  ⟨e.character, e.position + k⟩

namespace Token

variable {strict : Bool} {pos : Nat}

def shifted (k : Nat) : Except UnrecognizedCharacter (List Token) →
    Except UnrecognizedCharacter (List Token)
  | .ok ts => .ok (ts.map (Token.shift k))
  | .error e => .error (e.shift k)

theorem pending_add (k stop : Nat) (word : List Char) :
    pending (stop + k) word = (pending stop word).map (Token.shift k) := by
  cases word with
  | nil => rfl
  | cons c word =>
    have hstart : ((stop + k : Nat) : Int) - (c :: word).length =
        (stop : Int) - (c :: word).length + k := by omega
    rw [pending, pending, List.map_singleton, shift_eq, ofWord, ofWord, hstart]
    rfl

/-- A separator further back gives the same, shifted. -/
theorem ofSeparator_add (k : Nat) (c : Char) :
    ofSeparator strict (pos + k) c = shifted k (ofSeparator strict pos c) := by
  rw [ofSeparator, ofSeparator]
  split
  · have hstop : ((pos + k : Nat) : Int) + 1 = (pos : Int) + 1 + k := by omega
    rw [shifted, List.map_singleton, shift_eq, hstop]
    rfl
  · split <;> rfl

/-- A text further back has the same tokens, shifted. -/
theorem scanFrom_add (k : Nat) (word cs : List Char) :
    scanFrom strict (pos + k) word cs = shifted k (scanFrom strict pos word cs) := by
  induction cs generalizing pos word with
  | nil => exact congrArg Except.ok (pending_add k pos word)
  | cons c cs ih =>
    rw [scanFrom, scanFrom, Nat.add_right_comm]
    split
    · exact ih (c :: word)
    · rw [ofSeparator_add, ih, pending_add]
      cases ofSeparator strict pos c with
      | error e => rfl
      | ok here =>
        cases scanFrom strict (pos + 1) [] cs with
        | error e => rfl
        | ok later =>
          show Except.ok _ = Except.ok _
          rw [List.map_append, List.map_append]

theorem stopsWord_reverse_of_cons {c : Char} {cs : List Char}
    (h : StopsWord (c :: cs).reverse) : StopsWord cs.reverse := by
  rw [List.reverse_cons] at h
  cases hr : cs.reverse with
  | nil => exact .nil
  | cons d r =>
    rw [hr] at h
    exact h

-- Behind a text that does not end with a letter, or before one that does not start with a letter,
-- scanning starts anew.
theorem scanFrom_append {cs ds : List Char} (word : List Char)
    (h : StopsWord ds ∨ StopsWord cs.reverse ∧ (cs = [] → word = [])) :
    scanFrom strict pos word (cs ++ ds) = do
      let ts ← scanFrom strict pos word cs
      let us ← scanFrom strict (pos + cs.length) [] ds
      return ts ++ us := by
  induction cs generalizing pos word with
  | nil =>
    rw [List.nil_append]
    rcases h with hds | ⟨-, hword⟩
    · rw [scanFrom_pending hds, scanFrom]
      cases scanFrom strict pos [] ds <;> rfl
    · rw [hword rfl, scanFrom]
      show _ = scanFrom strict pos [] ds >>= _
      cases scanFrom strict pos [] ds <;> rfl
  | cons c cs ih =>
    rw [List.cons_append, scanFrom, scanFrom, List.length_cons, Nat.add_comm cs.length,
      ← Nat.add_assoc]
    -- A letter joins the word, anything else ends it.
    split
    · next hletter =>
      refine ih (c :: word) (h.imp_right fun hword => ⟨stopsWord_reverse_of_cons hword.1, ?_⟩)
      rintro rfl
      have hc := hword.1 c rfl
      rw [hletter] at hc
      cases hc
    · rw [ih [] (h.imp_right fun hword => ⟨stopsWord_reverse_of_cons hword.1, fun _ => rfl⟩)]
      cases ofSeparator strict pos c with
      | error e => rfl
      | ok here =>
        cases scanFrom strict (pos + 1) [] cs with
        | error e => rfl
        | ok ts =>
          cases scanFrom strict (pos + 1 + cs.length) [] ds with
          | error e => rfl
          | ok us =>
            show Except.ok _ = Except.ok _
            simp only [List.append_assoc]

end Token

/-- Two texts that do not meet in a word are scanned one after the other. -/
theorem tokenize_append {a b : String} {strict : Bool}
    (h : StopsWord b.toList ∨ StopsWord a.toList.reverse) :
    tokenize (a ++ b) strict = do
      let ts ← tokenize a strict
      let us ← Token.shifted a.length (tokenize b strict)
      return ts ++ us := by
  have hadd : Token.scanFrom strict (0 + a.length) [] b.toList = _ :=
    Token.scanFrom_add a.length [] b.toList
  rw [tokenize, Token.scan, String.toList_append,
    Token.scanFrom_append [] (h.imp_right fun hstops => ⟨hstops, fun _ => rfl⟩),
    String.length_toList, hadd]
  rfl

end LetFun
