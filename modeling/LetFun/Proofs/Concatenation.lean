import LetFun.Proofs.Indifference
import LetFun.Proofs.Layout
import LetFun.Proofs.Seams
import LetFun.Proofs.Slices
/-!
# Programs one behind the other

A program never ends with a letter, so that a text behind it is scanned as it is by itself, and what
the parser does after a program does not depend on the program. The texts of two programs make a
text of both, and an error behind a program is the error of what stands there
(`parseSource_append`).
-/

namespace LetFun

open Grammar

def ParseError.shift (k : Int) : ParseError → ParseError
  | .unexpected expected rest => .unexpected expected (rest.map (Token.shift k))
  | .tooDeep rest => .tooDeep (rest.map (Token.shift k))
  | .invalid node => .invalid node

theorem ParseError.actual_shift (k : Int) (rest : List Token) :
    actual (rest.map (Token.shift k)) = actual rest := by
  rw [actual, actual, List.head?_map, Option.map_map]
  rfl

theorem ParseError.position_shift (k : Int) (rest : List Token) :
    position (rest.map (Token.shift k)) = (position rest).map fun n : Int => n + k := by
  rw [position, position, List.head?_map, Option.map_map, Option.map_map]
  rfl

/-- Declarations may be spelled in two parts. -/
theorem Declaration.AllSpelledBy.append {ds es : List Declaration} {ts us : List Token}
    (hds : Declaration.AllSpelledBy ds ts) (hes : Declaration.AllSpelledBy es us) :
    Declaration.AllSpelledBy (ds ++ es) (ts ++ us) := by
  induction ds generalizing ts with
  | nil =>
    cases hds
    exact hes
  | cons d ds ih =>
    obtain ⟨⟩ | ⟨hd, hds⟩ := hds
    rw [List.append_assoc]
    exact .cons hd (ih hds)

theorem Declaration.depthList_append (ds es : List Declaration) :
    Declaration.depthList (ds ++ es) =
      max (Declaration.depthList ds) (Declaration.depthList es) := by
  induction ds with
  | nil => exact (Nat.zero_max _).symm
  | cons d ds ih =>
    rw [List.cons_append, Declaration.depthList, Declaration.depthList, ih, Nat.max_assoc]

theorem Token.sameChecked_shift (t : Token) (k : Int) : t.SameChecked (t.shift k) := by
  rw [Token.shift_eq]
  exact ⟨rfl, fun _ => rfl⟩

namespace Parse

variable {room : Room} {ts us : List Token}

/-! ## Tokens at other offsets -/

-- The error at a token is told by its index.
theorem program_shift_error {k : Int} {e : ParseError} (h : program room ts = .error e) :
    program room (ts.map (Token.shift k)) = .error (e.shift k) := by
  have hsame : List.Forall₂ Token.SameChecked ts (ts.map (Token.shift k)) :=
    List.forall₂_map_right_iff.2 (List.forall₂_same.2 fun t _ => t.sameChecked_shift k)
  obtain ⟨e', hshifted, he'⟩ := exists_program_sameError hsame h
  rw [hshifted]
  cases he' with
  | unexpected expected i hi hactual =>
    rw [← List.map_drop]
    rfl
  | tooDeep i =>
    rw [← List.map_drop]
    rfl
  | invalid node => rfl

/-! ## Tokens behind a program -/

-- Declarations leave the verdict to the tokens behind them.
theorem verdictFrom_append {ds : List Declaration} {q : List Token}
    (h : Declaration.AllSpelledBy ds q) {n : Nat}
    (hroom : (room.inside n).Holds (Declaration.depthList ds)) (lets : List (Option String))
    (rest : List Token) :
    verdictFrom room ⟨.between, n⟩ lets (q ++ rest) = verdictFrom room ⟨.between, n⟩ lets rest := by
  induction h using spelledInduction generalizing n lets rest with
  | nil => rfl
  | @cons o q body inner brace d ds later ho _ hbrace hd _ ihbody ihlater =>
    rw [depthList_cons_of_close hd, Room.holds_max] at hroom
    -- The first declaration has room for its body, as the whole list has room for its deepest one.
    obtain ⟨room', henter⟩ :=
      Room.exists_enter hroom.1 (inner ++ brace :: (later ++ rest))
    have hinner : (room.inside (n + 1)).Holds (Declaration.depthList body) := by
      rw [← Room.enter_inside henter]
      exact (Room.holds_of_enter henter).2 hroom.1
    have hts : q ++ (inner ++ brace :: later) ++ rest =
        q ++ (inner ++ brace :: (later ++ rest)) := by simp
    obtain ⟨_, hopening⟩ := opening_append ho (inner ++ brace :: (later ++ rest))
    calc verdictFrom room ⟨.between, n⟩ lets (q ++ (inner ++ brace :: later) ++ rest)
      _ = verdictFrom room ⟨.between, n + 1⟩ (o.letToken.value :: lets)
            (inner ++ brace :: (later ++ rest)) := by
          rw [hts, verdictFrom_opening (ho.startsWith _), hopening]
          show ((room.inside n).enter (inner ++ brace :: (later ++ rest)) >>= _) = _
          rw [henter]
          rfl
      _ = verdictFrom room ⟨.between, n + 1⟩ (o.letToken.value :: lets)
            (brace :: (later ++ rest)) := ihbody hinner _ _
      _ = verdictFrom room ⟨.between, n⟩ lets (later ++ rest) := by
          rw [verdictFrom_rightCurly hbrace o body, hd]
          rfl
      _ = verdictFrom room ⟨.between, n⟩ lets rest := ihlater hroom.2 _ _

/-- Behind a whole program the next fault is that of the tokens that follow. -/
theorem program_append_error {p : Program} {e : ParseError} (hts : program room ts = .ok p)
    (hus : program room us = .error e) : program room (ts ++ us) = .error e := by
  obtain ⟨hspelled, hroom⟩ := program_eq_ok_iff.1 hts
  have hinside : room.inside 0 = room := by cases room <;> rfl
  rw [← hinside] at hroom
  rw [program_eq_error_iff] at hus ⊢
  rw [verdict, State.start, verdictFrom_append hspelled.body hroom]
  exact hus

/-- Two programs one behind the other are one, where the declarations of the second are shifted. -/
theorem program_append_ok {p p' : Program} (hts : program room ts = .ok p)
    (hus : program room us = .ok p') (k : Int) :
    program room (ts ++ us.map (Token.shift k)) =
      .ok (programOf (p.body ++ p'.body.map (Declaration.shift k))) := by
  obtain ⟨hspelled, hroom⟩ := program_eq_ok_iff.1 hts
  obtain ⟨hspelled', hroom'⟩ := program_eq_ok_iff.1 hus
  have hbody := hspelled.body.append (hspelled'.body.shift k)
  refine program_eq_ok_iff.2 ⟨spelledBy_iff_eq_programOf.2 ⟨hbody, rfl⟩, ?_⟩
  rw [Program.depth, programOf, Declaration.depthList_append, Room.holds_max,
    Declaration.depthList_shift]
  exact ⟨hroom, hroom'⟩

end Parse

/-! ## Sources -/

/-- Declarations end with a closing brace, so no word goes on behind them. -/
theorem type_getLast?_of_allSpelledBy {ds : List Declaration} {ts : List Token}
    (h : Declaration.AllSpelledBy ds ts) : ∀ t ∈ ts.getLast?, t.type = .rightCurly := by
  induction h using Parse.spelledInduction with
  | nil => exact fun _ ht => (nomatch ht)
  | @cons o q body inner brace d ds rest _ _ hbrace _ _ _ ih =>
    intro t ht
    rw [Parse.getLast?_append_cons] at ht
    cases hlast : rest.getLast? with
    | none =>
      rw [hlast] at ht
      cases ht
      exact hbrace
    | some u =>
      rw [hlast] at ht
      cases ht
      exact ih u hlast

-- A text ends with the brace of its last declaration, or has no letters at all.
theorem stopsWord_of_spelledBy {source : String} {strict : Bool} {ts : List Token} {p : Program}
    (hlaid : Laid strict ts source) (hp : p.SpelledBy ts) : StopsWord source.toList.reverse := by
  obtain ⟨gap, cs, hgap, hsource, hcs⟩ := hlaid
  have hlast : ∀ t ∈ ts.getLast?, t.type.isWord = false := by
    intro t ht
    rw [type_getLast?_of_allSpelledBy hp.body t ht]
    rfl
  have hstops := hcs.stopsWord_reverse hlast
  rw [hsource]
  by_cases hnil : cs = []
  · have hblank : StopsWord ([] ++ gap).reverse := hgap.stopsWord_reverse fun _ => .nil
    rwa [hnil, List.append_nil]
  · rw [List.reverse_append]
    exact hstops.append (by simpa using hnil) _

def SourceError.shift (k : Nat) : SourceError → SourceError
  | .character e => .character (e.shift k)
  | .grammar e => .grammar (e.shift k)

section Append

variable [CallStack] {a b : String} {strict : Bool} {p : Program}
  (h : parseSource a strict = .ok p)
include h

-- The tokens of a program are followed by the tokens of the text behind it.
theorem exists_tokenize_append : ∃ ts, parse ts = .ok p ∧ ∀ b,
    tokenize (a ++ b) strict =
      Token.shifted a.length (tokenize b strict) >>= fun us => .ok (ts ++ us) := by
  obtain ⟨ts, hlaid, hspelled, hdepth⟩ := parseSource_eq_ok_iff.1 h
  refine ⟨ts, Parse.program_eq_ok_iff.2 ⟨hspelled, hdepth⟩, fun b => ?_⟩
  rw [tokenize_append (.inr (stopsWord_of_spelledBy hlaid hspelled)), tokenize_eq_ok_iff.2 hlaid]
  rfl

/-- A text behind that of a program adds its declarations, shifted. -/
theorem parseSource_append_ok {p' : Program} (hb : parseSource b strict = .ok p') :
    parseSource (a ++ b) strict =
      .ok (Parse.programOf (p.body ++ p'.body.map (Declaration.shift a.length))) := by
  obtain ⟨ts, hts, happend⟩ := exists_tokenize_append h
  obtain ⟨us, hus, hparse⟩ := Except.bind_eq_ok_iff.1 hb
  have htokens : tokenize (a ++ b) strict = .ok (ts ++ us.map (Token.shift a.length)) := by
    rw [happend, Except.mapError_eq_ok_iff.1 hus]
    rfl
  rw [parseSource_of_tokens htokens, parse,
    Parse.program_append_ok hts (Except.mapError_eq_ok_iff.1 hparse)]
  rfl

/-- An error in a text behind that of a program is the same one, shifted. -/
theorem parseSource_append_error {e : SourceError} (hb : parseSource b strict = .error e) :
    parseSource (a ++ b) strict = .error (e.shift a.length) := by
  obtain ⟨ts, hts, happend⟩ := exists_tokenize_append h
  cases hus : tokenize b strict with
  | error c =>
    have htokens : tokenize (a ++ b) strict = .error (c.shift a.length) := by
      rw [happend, hus]
      rfl
    rw [parseSource, hus] at hb
    rw [parseSource, htokens]
    cases hb
    rfl
  -- Both texts have tokens, so it is the parser that fails, and on the second text.
  | ok us =>
    have htokens : tokenize (a ++ b) strict = .ok (ts ++ us.map (Token.shift a.length)) := by
      rw [happend, hus]
      rfl
    rw [parseSource_of_tokens hus] at hb
    rw [parseSource_of_tokens htokens]
    cases hparse : parse us with
    | ok p' =>
      rw [hparse] at hb
      cases hb
    | error e' =>
      rw [hparse] at hb
      cases hb
      rw [parse, Parse.program_append_error hts (Parse.program_shift_error hparse)]
      rfl

end Append

/-- The texts of two programs, one behind the other, are the text of both together; what is wrong
with a text is wrong with it behind a program too, in the same way and at offsets that are higher by
the length of the program. -/
theorem parseSource_append [CallStack] {a b : String} {strict : Bool} {p : Program}
    (h : parseSource a strict = .ok p) :
    (∀ p', parseSource b strict = .ok p' → ∃ whole, parseSource (a ++ b) strict = .ok whole ∧
      whole.body = p.body ++ p'.body.map (Declaration.shift a.length) ∧ whole.span.start = 0 ∧
      whole.span.stop = (whole.body.getLast?.map (·.span.stop)).getD 0) ∧
    (∀ c n, parseSource b strict = .error (.character ⟨c, n⟩) →
      parseSource (a ++ b) strict = .error (.character ⟨c, n + a.length⟩)) ∧
    (∀ expected rest, parseSource b strict = .error (.grammar (.unexpected expected rest)) →
      ∃ rest', parseSource (a ++ b) strict = .error (.grammar (.unexpected expected rest')) ∧
        ParseError.actual rest' = ParseError.actual rest ∧
        ParseError.position rest' = (ParseError.position rest).map fun n : Int => n + a.length) ∧
    (∀ rest, parseSource b strict = .error (.grammar (.tooDeep rest)) →
      ∃ rest', parseSource (a ++ b) strict = .error (.grammar (.tooDeep rest')) ∧
        ParseError.position rest' =
          (ParseError.position rest).map fun n : Int => n + a.length) := by
  refine ⟨fun p' hb => ⟨_, parseSource_append_ok h hb, rfl, rfl, rfl⟩, fun c n hb =>
    parseSource_append_error h hb, fun expected rest hb => ?_, fun rest hb => ?_⟩
  · exact ⟨_, parseSource_append_error h hb, ParseError.actual_shift _ _,
      ParseError.position_shift _ _⟩
  · exact ⟨_, parseSource_append_error h hb, ParseError.position_shift _ _⟩

def shortSource : String :=
  "let a=function()\x7b\x7d"

def shortProgram : Program :=
  ⟨⟨0, 18⟩, [⟨⟨0, 18⟩, .letKind, [⟨⟨0, 18⟩, ⟨⟨4, 5⟩, "a"⟩, ⟨⟨6, 18⟩, none, [], ⟨⟨16, 18⟩, []⟩⟩⟩]⟩]⟩

def deepText : List Char :=
  (List.replicate 257 "let a=function()\x7b".toList).flatten

-- Whether a source text is refused, without its tree.
theorem parseSource_eq_error_iff_verdict [CallStack] {source : String} {strict : Bool}
    {e : SourceError} :
    parseSource source strict = .error e ↔
      ((tokenize source strict).mapError SourceError.character >>= fun ts =>
        (Parse.verdict (some CallStack.bodies) ts).mapError SourceError.grammar) = .error e := by
  rw [parseSource]
  cases tokenize source strict with
  | error c =>
    show Except.error (SourceError.character c) = _ ↔ Except.error (SourceError.character c) = _
    simp
  | ok ts =>
    show (parse ts).mapError _ = _ ↔ (Parse.verdict (some CallStack.bodies) ts).mapError _ = _
    rw [← Parse.program_bind_eq_verdict, ← parse]
    cases parse ts with
    | error e' =>
      show Except.error (SourceError.grammar e') = _ ↔ Except.error (SourceError.grammar e') = _
      simp
    | ok p => constructor <;> (intro h; cases h)

/-- What stands right behind `shortSource`: itself, a character that strict texts do not have, a
misplaced `=`, and declarations nested too deeply. -/
theorem shortSource_append :
    parseSource shortSource true = .ok shortProgram ∧
      (∃ whole, parseSource (shortSource ++ shortSource) true = .ok whole ∧
        whole.body =
          shortProgram.body ++ shortProgram.body.map (Declaration.shift shortSource.length) ∧
        whole.span.start = 0 ∧
        whole.span.stop = (whole.body.getLast?.map (·.span.stop)).getD 0) ∧
      parseSource (shortSource ++ "let;") true =
        .error (.character ⟨';', 3 + shortSource.length⟩) ∧
      (∃ rest, parseSource (shortSource ++ "let =") true =
          .error (.grammar (.unexpected [.identifier] rest)) ∧
        ParseError.actual rest = some .assign ∧
        ParseError.position rest = some (4 + shortSource.length : Int)) ∧
      ∃ rest, parseSource (shortSource ++ String.ofList deepText) true =
        .error (.grammar (.tooDeep rest)) := by
  have hshort : parseSource shortSource true = .ok shortProgram := by decide +kernel
  have hcharacter : parseSource "let;" true = .error (.character ⟨';', 3⟩) := by decide +kernel
  have hassign : parseSource "let =" true =
      .error (.grammar (.unexpected [.identifier] [⟨.assign, some "=", 4, 5⟩])) := by decide +kernel
  obtain ⟨rest, hdeep⟩ : ∃ rest, parseSource (String.ofList deepText) true =
      .error (.grammar (.tooDeep rest)) := by
    -- Each opening has seven tokens.
    refine ⟨((tokenize (String.ofList deepText) true).toOption.getD []).drop
      (7 * (CallStack.bodies + 1)), parseSource_eq_error_iff_verdict.2 ?_⟩
    rw [tokenize, String.toList_ofList]
    decide +kernel
  obtain ⟨rest', hwhole, -⟩ := (parseSource_append hshort).2.2.2 _ hdeep
  exact ⟨hshort, (parseSource_append hshort).1 _ hshort,
    (parseSource_append hshort).2.1 _ _ hcharacter,
    (parseSource_append hshort).2.2.1 _ _ hassign, rest', hwhole⟩

end LetFun
