import LetFun.Proofs.Parsing
/-!
# What the parser refuses

Tokens are refused because of one token, which has the wrong type or the wrong value, or because
there is no room for a body (`program_error`). A limit on nesting changes nothing else: where tokens
are not nested too deeply, the parser does what it does without a limit (`program_eq_unbounded`).
-/

namespace LetFun.Parse

open Grammar

/-! ## Failures -/

/-- A failure at a single token: none of the expected ones starts the rest, or a token does not have
the value that it needs. -/
inductive Misfit (ts : List Token) : ParseError → Prop where
  | unexpected (expected : List TokenType) {rest : List Token} (h : rest <:+ ts) :
      Misfit ts (.unexpected expected rest)
  | invalid {t : Token} (node : InvalidNode) (ht : t ∈ ts) (h : ¬ t.IsValued) :
      Misfit ts (.invalid node)

/-- A failure in the rest of the tokens is one of the whole list. -/
theorem Misfit.of_suffix {ts rest : List Token} {e : ParseError} (hs : rest <:+ ts)
    (h : Misfit rest e) : Misfit ts e := by
  cases h with
  | unexpected expected h => exact .unexpected expected (h.trans hs)
  | invalid node ht h => exact .invalid node (hs.subset ht) h

/-- A reader followed by another fails at a token if each of them does. -/
theorem Misfit.bind {α β : Type} {n : Nat} {ts : List Token} {e : ParseError}
    {x : Except ParseError (Parsed Token α n)} {f : Parsed Token α n → Except ParseError β}
    (hx : x = .error e → Misfit ts e) (hs : ∀ r, x = .ok r → r.rest <:+ ts)
    (hf : ∀ r, x = .ok r → f r = .error e → Misfit r.rest e) (h : (x >>= f) = .error e) :
    Misfit ts e := by
  rcases Except.bind_eq_error_iff.1 h with h | ⟨r, hr, h⟩
  · exact hx h
  · exact (hf r hr h).of_suffix (hs r hr)

/-- More bodies are open somewhere than there is room for, on tokens that follow the grammar. -/
def Crowded (room : Room) (types : List TokenType) : Prop :=
  ∃ limit q, room = some limit ∧ q <+: types ∧ Viable q ∧ limit < openBodies q

/-- One token is refused for its type or because there is none. -/
theorem expect_error {type : TokenType} {ts : List Token} {e : ParseError}
    (h : expect type ts = .error e) : Misfit ts e := by
  cases ts with
  | nil =>
    cases h
    exact .unexpected _ List.suffix_rfl
  | cons t rest =>
    rw [expect] at h
    split at h
    · cases h
    · cases h
      exact .unexpected _ List.suffix_rfl

theorem closing_error {ts : List Token} {e : ParseError} (h : closing ts = .error e) :
    Misfit ts e := by
  cases ts with
  | nil =>
    cases h
    exact .unexpected _ List.suffix_rfl
  | cons t rest =>
    rw [closing] at h
    split at h
    · cases h
    · cases h
      exact .unexpected _ List.suffix_rfl

/-- An identifier is refused only for its missing value. -/
theorem identifierOf_error {t : Token} {e : ParseError} (ht : t.type = .identifier)
    (h : identifierOf t = .error e) (rest : List Token) : Misfit (t :: rest) e := by
  rw [identifierOf] at h
  split at h
  · cases h
  · next hvalue =>
    cases h
    refine .invalid _ List.mem_cons_self fun hv => ?_
    obtain ⟨name, hname⟩ := hv.name ht
    rw [hvalue] at hname
    cases hname

theorem identifier_error {ts : List Token} {e : ParseError} (h : identifier ts = .error e) :
    Misfit ts e := by
  rcases Except.bind_eq_error_iff.1 h with h | ⟨t, ht, h⟩
  · exact expect_error h
  · obtain ⟨hts, htype⟩ := expect_ok ht
    rw [hts]
    rcases Except.bind_eq_error_iff.1 h with h | ⟨i, _, h⟩
    · exact identifierOf_error htype h _
    · cases h

theorem functionName_error {ts : List Token} {e : ParseError} (h : functionName ts = .error e) :
    Misfit ts e := by
  rw [functionName] at h
  split at h
  · rcases Except.bind_eq_error_iff.1 h with h | ⟨i, _, h⟩
    · exact identifier_error h
    · cases h
  · cases h

/-- Parameters are refused at the first token that is neither one more nor the end. -/
theorem params_error {ts : List Token} {e : ParseError} (h : params ts = .error e) :
    Misfit ts e := by
  induction ts with
  | nil =>
    cases h
    exact .unexpected _ List.suffix_rfl
  | cons t rest ih =>
    rw [params] at h
    split at h
    · cases h
    · split at h
      · next ht =>
        rcases Except.bind_eq_error_iff.1 h with h | ⟨i, _, h⟩
        · exact identifierOf_error ht h rest
        · rcases Except.bind_eq_error_iff.1 h with h | ⟨later, _, h⟩
          · exact (ih h).of_suffix (List.suffix_cons t rest)
          · cases h
      · cases h
        exact .unexpected _ List.suffix_rfl

-- An opening that is refused has a single token at fault.
theorem opening_error {ts : List Token} {e : ParseError} (h : opening ts = .error e) :
    Misfit ts e := by
  refine Misfit.bind expect_error (fun _ => expect_suffix) (fun l _ h => ?_) h
  refine Misfit.bind identifier_error (fun _ => identifier_suffix) (fun id _ h => ?_) h
  refine Misfit.bind expect_error (fun _ => expect_suffix) (fun a _ h => ?_) h
  refine Misfit.bind expect_error (fun _ => expect_suffix) (fun f _ h => ?_) h
  refine Misfit.bind functionName_error (fun _ => functionName_suffix) (fun name _ h => ?_) h
  refine Misfit.bind expect_error (fun _ => expect_suffix) (fun lp _ h => ?_) h
  refine Misfit.bind params_error (fun _ => params_suffix) (fun ps _ h => ?_) h
  refine Misfit.bind expect_error (fun _ => expect_suffix) (fun b _ h => ?_) h
  cases h

/-- A declaration that is read up to its end may still be refused for its kind. -/
theorem close_error {o : Opening} {q : List Token} (ho : o.SpelledBy q) {body : List Declaration}
    {brace : Token} {e : ParseError} (h : o.close body brace = .error e) (rest : List Token) :
    Misfit (q ++ rest) e := by
  have hclose := h
  rw [Opening.close] at hclose
  split at hclose
  · cases hclose
    cases ho with
    | intro hl =>
      refine .invalid _ List.mem_cons_self fun hv => ?_
      obtain ⟨kind, hkind⟩ := hv.kind hl
      rw [Opening.close_eq_ok_iff.2 ⟨kind, hkind, rfl⟩] at h
      cases h
  · cases hclose

-- The room gives out only where as many bodies are open as there is room for.
theorem enter_error {room : Room} {rest : List Token} {e : ParseError}
    (h : room.enter rest = .error e) : e = .tooDeep rest ∧ room = some 0 := by
  cases room with
  | none => cases h
  | some limit =>
    cases limit with
    | zero =>
      cases h
      exact ⟨rfl, rfl⟩
    | succ limit => cases h

/-! ## Nesting -/

/-- Without room, an opening is too much. -/
theorem Crowded.of_opening {o : List TokenType} (ho : IsOpening o) (rest : List TokenType) :
    Crowded (some 0) (o ++ rest) :=
  ⟨0, o, rfl, List.prefix_append o rest, ho.viable, by rw [ho.openBodies_eq]; exact Nat.one_pos⟩

/-- What is too much inside a body is too much with the opening before it. -/
theorem Crowded.inside {o rest : List TokenType} {room inner : Room} (ho : IsOpening o)
    {ts : List Token} (henter : room.enter ts = .ok inner) (h : Crowded inner rest) :
    Crowded room (o ++ rest) := by
  obtain ⟨limit, q, rfl, hq, hviable, hdeep⟩ := h
  obtain rfl : room = some (limit + 1) := by
    cases room with
    | none => cases henter
    | some n =>
      cases n with
      | zero => cases henter
      | succ n =>
        cases henter
        rfl
  exact ⟨limit + 1, o ++ q, rfl, (List.prefix_append_right_inj o).2 hq, hviable.inside ho,
    lt_openBodies_inside ho hdeep⟩

/-- What is too much behind whole declarations is too much with them. -/
theorem Crowded.after {ts rest : List TokenType} {room : Room} (hts : IsProgram ts)
    (h : Crowded room rest) : Crowded room (ts ++ rest) := by
  obtain ⟨limit, q, hroom, hq, hviable, hdeep⟩ := h
  exact ⟨limit, ts ++ q, hroom, (List.prefix_append_right_inj ts).2 hq, hviable.after hts,
    by rwa [openBodies_after hts]⟩

-- Declarations are refused because of a token, or because there is no room for a body.
theorem declarations_error {room : Room} {ts : List Token} {e : ParseError}
    (h : declarations room ts = .error e) :
    Misfit ts e ∨ ∃ rest, e = .tooDeep rest ∧ rest <:+ ts ∧ Crowded room (Token.types ts) := by
  rw [declarations] at h
  split at h
  -- The steps of the reader are taken in turn, and each may be the one that fails.
  · rcases Except.bind_eq_error_iff.1 h with h | ⟨o, ho, h⟩
    · exact .inl (opening_error h)
    have holt := o.lt_bound
    obtain ⟨q, hts, hopening⟩ := opening_ok ho
    have htypes : Token.types ts = Token.types q ++ Token.types o.rest := by
      rw [← List.map_append, ← hts]
    rw [htypes]
    rcases Except.bind_eq_error_iff.1 h with h | ⟨inner, henter, h⟩
    · obtain ⟨rfl, rfl⟩ := enter_error h
      exact .inr ⟨_, rfl, ⟨q, hts.symm⟩, .of_opening hopening.isOpening _⟩
    rcases Except.bind_eq_error_iff.1 h with h | ⟨body, hbody, h⟩
    · rcases declarations_error h with hmisfit | ⟨rest, rfl, hrest, hcrowded⟩
      · exact .inl (hmisfit.of_suffix ⟨q, hts.symm⟩)
      · exact .inr ⟨rest, rfl, hrest.trans ⟨q, hts.symm⟩,
          hcrowded.inside hopening.isOpening henter⟩
    have hbodylt := body.lt_bound
    obtain ⟨_, _, qbody, hrest, hspelled⟩ := declarations_ok hbody
    have hsuffix : body.rest <:+ ts := .trans ⟨qbody, hrest.symm⟩ ⟨q, hts.symm⟩
    rcases Except.bind_eq_error_iff.1 h with h | ⟨brace, hbrace, h⟩
    · exact .inl ((closing_error h).of_suffix hsuffix)
    have hbracelt := brace.lt_bound
    obtain ⟨hbraces, hcurly⟩ := closing_ok hbrace
    rcases Except.bind_eq_error_iff.1 h with h | ⟨d, hd, h⟩
    · have hmisfit := close_error hopening h o.rest
      rw [← hts] at hmisfit
      exact .inl hmisfit
    rcases Except.bind_eq_error_iff.1 h with h | ⟨later, _, h⟩
    · have hlater : brace.rest <:+ ts := .trans ⟨[brace.value], hbraces.symm⟩ hsuffix
      rcases declarations_error h with hmisfit | ⟨stop, rfl, hstop, hcrowded⟩
      · exact .inl (hmisfit.of_suffix hlater)
      · refine .inr ⟨stop, rfl, hstop.trans hlater, ?_⟩
        have hwhole := isProgram_cons hopening.isOpening (isProgram_of_allSpelledBy hspelled) .nil
        have hcrowded := hcrowded.after hwhole
        rw [hrest, hbraces]
        simpa [hcurly] using hcrowded
    · cases h
  · cases h
termination_by ts.length
decreasing_by all_goals omega

-- A limit on nesting changes nothing but that declarations may be too deep.
theorem declarations_eq_or_tooDeep (room : Room) (ts : List Token) :
    declarations room ts = declarations none ts ∨
      ∃ rest, declarations room ts = .error (.tooDeep rest) := by
  rw [declarations.eq_1 room ts, declarations.eq_1 none ts]
  split
  · refine Except.bind_eq_or_error (.inl rfl) fun o _ => ?_
    have holt := o.lt_bound
    cases henter : room.enter o.rest with
    | error e =>
      obtain ⟨rfl, _⟩ := enter_error henter
      exact .inr ⟨_, rfl⟩
    | ok inner =>
      -- The unlimited parser enters the body with no limit, so from here on the bodies compare.
      show (declarations inner o.rest >>= _) = (declarations none o.rest >>= _) ∨ _
      refine Except.bind_eq_or_error (declarations_eq_or_tooDeep inner o.rest) fun body _ => ?_
      have hbodylt := body.lt_bound
      refine Except.bind_eq_or_error (.inl rfl) fun brace _ => ?_
      have hbracelt := brace.lt_bound
      refine Except.bind_eq_or_error (.inl rfl) fun d _ => ?_
      exact Except.bind_eq_or_error (declarations_eq_or_tooDeep room brace.rest)
        fun _ _ => .inl rfl
  · exact .inl rfl
termination_by ts.length
decreasing_by all_goals omega

/-! ## Programs -/

/-- A program is refused for one token, or because its tokens are too much for the room. -/
theorem program_error {room : Room} {ts : List Token} {e : ParseError}
    (h : program room ts = .error e) :
    Misfit ts e ∨ ∃ rest, e = .tooDeep rest ∧ rest <:+ ts ∧ Crowded room (Token.types ts) := by
  rcases Except.bind_eq_error_iff.1 h with h | ⟨ds, hds, h⟩
  · exact declarations_error h
  · obtain ⟨_, _, q, hts, _⟩ := declarations_ok hds
    split at h
    · cases h
    · next t rest hrest =>
      cases h
      rw [hrest] at hts
      exact .inl (.unexpected _ ⟨q, hts.symm⟩)

/-- A limit on the room changes nothing but to report that it is passed. -/
theorem program_eq_or_tooDeep (room : Room) (ts : List Token) :
    program room ts = program none ts ∨ ∃ rest, program room ts = .error (.tooDeep rest) := by
  rw [program, program]
  rcases declarations_eq_or_tooDeep room ts with h | ⟨rest, h⟩
  · exact .inl (by rw [h])
  · exact .inr ⟨rest, by rw [h]; rfl⟩

/-- Where no more bodies are open than there is room for, nothing is too much. -/
theorem not_crowded_of_nestedWithin {limit : Nat} {types : List TokenType}
    (h : NestedWithin limit types) : ¬ Crowded (some limit) types := by
  rintro ⟨n, q, hroom, hq, hviable, hdeep⟩
  cases hroom
  exact absurd (h q hq hviable) (Nat.not_le_of_lt hdeep)

/-- Tokens that are not nested too deeply are parsed as without a limit. -/
theorem program_eq_unbounded {limit : Nat} {ts : List Token}
    (h : NestedWithin limit (Token.types ts)) : program (some limit) ts = program none ts := by
  rcases program_eq_or_tooDeep (some limit) ts with heq | ⟨rest, hdeep⟩
  · exact heq
  · rcases program_error hdeep with hmisfit | ⟨_, -, -, hcrowded⟩
    · cases hmisfit
    · exact absurd hcrowded (not_crowded_of_nestedWithin h)

/-- Tokens whose values fit are refused only where one of another type should be. -/
theorem exists_unexpected {ts : List Token} {e : ParseError} (hvalues : ∀ t ∈ ts, t.IsValued)
    (h : Misfit ts e) : ∃ expected rest, e = .unexpected expected rest := by
  cases h with
  | unexpected expected _ => exact ⟨expected, _, rfl⟩
  | invalid node ht h => exact absurd (hvalues _ ht) h

end LetFun.Parse
