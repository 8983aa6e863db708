import LetFun.Proofs.Json.Integers
import LetFun.Proofs.Json.Quoting
/-!
# How deeply JSON text is nested

A reader goes over a piece of the text that closes what it opens, and what it refuses is in the
text: the place of a fault, an integer with too many digits, or more arrays and objects open than
there is room for (`fits_of_read`).
-/

namespace LetFun.Json

def opens (m : Char × Quoting) : Bool :=
  m.2 = .outside && (m.1 = '[' || m.1 = '\x7b')

def closes (m : Char × Quoting) : Bool :=
  m.2 = .outside && (m.1 = ']' || m.1 = '\x7d')

/-- How many more arrays and objects a text begins than it ends. -/
def openAt (text : List Char) : Int :=
  (marks .outside text).countP opens - (marks .outside text).countP closes

variable {α β : Type} {k l room : Int} {m n : Nat} {cs ds es w rest : List Char} {c : Char}
  {e : ReadError}

/-! ## Pieces of text -/

/-- Two texts begin and end arrays and objects one after the other. -/
theorem openAt_append (h : Quoting.outside.after cs = .outside) :
    openAt (cs ++ ds) = openAt cs + openAt ds := by
  rw [openAt, marks_append, h, List.countP_append, List.countP_append, openAt, openAt]
  omega

theorem openAt_eq_zero (h : ∀ m ∈ marks .outside cs, opens m = false ∧ closes m = false) :
    openAt cs = 0 := by
  rw [openAt, List.countP_eq_zero.2 fun m hm => by simp [h m hm],
    List.countP_eq_zero.2 fun m hm => by simp [h m hm]]
  rfl

/-- A text goes on with the rest after a piece that ends outside of strings and leaves `k` more
arrays and objects open. -/
def Passes (k : Int) (cs rest : List Char) : Prop :=
  ∃ piece, cs = piece ++ rest ∧ Quoting.outside.after piece = .outside ∧ openAt piece = k

def IsNeutral (c : Char) : Prop :=
  c ∉ ['\x22', '[', ']', '\x7b', '\x7d']

instance (c : Char) : Decidable (IsNeutral c) :=
  inferInstanceAs (Decidable (¬ _))

namespace Passes

theorem refl (cs : List Char) : Passes 0 cs cs :=
  ⟨[], rfl, rfl, rfl⟩

theorem trans (h : Passes k cs ds) (h' : Passes l ds es) : Passes (k + l) cs es := by
  obtain ⟨piece, rfl, hafter, rfl⟩ := h
  obtain ⟨piece', rfl, hafter', rfl⟩ := h'
  refine ⟨piece ++ piece', by simp, ?_, openAt_append hafter⟩
  rw [Quoting.after_append, hafter, hafter']

/-- A piece is followed by the rest of the same text. -/
theorem suffix (h : Passes k cs rest) : rest <:+ cs := by
  obtain ⟨piece, rfl, -, -⟩ := h
  exact List.suffix_append piece rest

theorem neutral (hw : ∀ c ∈ w, IsNeutral c) (rest : List Char) : Passes 0 (w ++ rest) rest := by
  have hquote : '\x22' ∉ w := fun hmem => absurd (hw _ hmem) (by decide)
  refine ⟨w, rfl, after_outside hquote, openAt_eq_zero ?_⟩
  rw [marks_outside hquote]
  refine List.forall_mem_map.2 fun c hc => ?_
  have hne := hw c hc
  simp only [IsNeutral, List.mem_cons, List.not_mem_nil, or_false, not_or] at hne
  simp [opens, closes, hne]

/-- A whole string leaves as many arrays and objects open as before. -/
theorem string (h : EndsString cs) (rest : List Char) :
    Passes 0 ('\x22' :: (cs ++ rest)) rest := by
  refine ⟨'\x22' :: cs, rfl, h.after, openAt_eq_zero ?_⟩
  show ∀ m ∈ ('\x22', Quoting.outside) :: marks .inside cs, _
  refine List.forall_mem_cons.2 ⟨by decide, fun m hm => ?_⟩
  simp [opens, closes, h.within m hm]

/-- A bracket or brace at the front leaves one more open. -/
theorem opening (hc : c ∈ ['[', '\x7b']) (rest : List Char) : Passes 1 (c :: rest) rest := by
  rw [List.mem_cons, List.mem_singleton] at hc
  rcases hc with rfl | rfl <;> exact ⟨[_], rfl, rfl, rfl⟩

theorem closing (hc : c ∈ [']', '\x7d']) (rest : List Char) : Passes (-1) (c :: rest) rest := by
  rw [List.mem_cons, List.mem_singleton] at hc
  rcases hc with rfl | rfl <;> exact ⟨[_], rfl, rfl, rfl⟩

theorem drop (hw : ∀ c ∈ w, IsNeutral c) (h : w <+: cs) : Passes 0 cs (cs.drop w.length) := by
  obtain ⟨rest, rfl⟩ := h
  rw [List.drop_left]
  exact neutral hw rest

end Passes

theorem passes_skip (cs : List Char) : Passes 0 cs (skip cs) := by
  have hspaces : ∀ c ∈ cs.takeWhile isSpace, IsNeutral c := by
    intro c hc hmem
    have hspace := List.all_eq_true.1 List.all_takeWhile c hc
    simp only [List.mem_cons, List.not_mem_nil, or_false] at hmem
    rcases hmem with rfl | rfl | rfl | rfl | rfl <;> exact absurd hspace (by decide)
  have hpasses := Passes.neutral hspaces (skip cs)
  rwa [skip, List.takeWhile_append_dropWhile] at hpasses

/-! ## What an error says about the text -/

/-- What an error says is so in the text, where there is room for `room` arrays and objects. -/
def ReadError.Fits (room : Int) (cs : List Char) : ReadError → Prop
  | .malformed _ rest => rest <:+ cs
  | .tooManyDigits count => digitLimit < count
  | .tooDeep => ∃ p, p <+: cs ∧ room < openAt p

-- What is open before a piece is open in it.
theorem ReadError.Fits.of_passes (h : e.Fits room ds) (hp : Passes k cs ds) :
    e.Fits (room + k) cs := by
  cases e with
  | malformed _ rest => exact h.trans hp.suffix
  | tooManyDigits count => exact h
  | tooDeep =>
    obtain ⟨p, hprefix, hroom⟩ := h
    obtain ⟨piece, rfl, hafter, rfl⟩ := hp
    refine ⟨piece ++ p, (List.prefix_append_right_inj piece).2 hprefix, ?_⟩
    rw [openAt_append hafter]
    omega

/-- A reader goes over a piece of the text that leaves `k` more arrays and objects open, or its
error fits the text. -/
structure Reads (room k : Int) (cs : List Char)
    (x : Except ReadError (Parsed Char α n)) : Prop where
  passes : ∀ r, x = .ok r → Passes k cs r.rest
  fits : ∀ e, x = .error e → e.Fits room cs

namespace Reads

theorem ok (h : Passes k cs rest) (v : α) (hlt : rest.length < n) :
    Reads room k cs (.ok ⟨v, rest, hlt⟩ : Except ReadError (Parsed Char α n)) := by
  refine ⟨?_, fun e he => (nomatch he)⟩
  rintro r ⟨⟩
  exact h

theorem error (h : e.Fits room cs) :
    Reads room k cs (.error e : Except ReadError (Parsed Char α n)) := by
  refine ⟨fun r hr => (nomatch hr), ?_⟩
  rintro e ⟨⟩
  exact h

/-- Behind a piece there is room for as many as the piece leaves. -/
theorem of_passes {x : Except ReadError (Parsed Char α n)} (hx : Reads room l ds x)
    (h : Passes k cs ds) : Reads (room + k) (k + l) cs x :=
  ⟨fun r hr => h.trans (hx.passes r hr), fun e he => (hx.fits e he).of_passes h⟩

theorem bind {x : Except ReadError (Parsed Char α m)}
    {f : Parsed Char α m → Except ReadError (Parsed Char β n)} (hx : Reads room 0 cs x)
    (hf : ∀ r, x = .ok r → Reads room k r.rest (f r)) : Reads room k cs (x >>= f) := by
  cases hx' : x with
  | error e => exact .error (hx.fits e hx')
  | ok r =>
    have hr := (hf r hx').of_passes (hx.passes r hx')
    rwa [Int.add_zero, Int.zero_add] at hr

theorem bind_pure {x : Except ReadError (Parsed Char α m)}
    {f : Parsed Char α m → Parsed Char β n} (hx : Reads room k cs x)
    (hf : ∀ r, (f r).rest = r.rest) : Reads room k cs (x >>= fun r => pure (f r)) := by
  cases hx' : x with
  | error e => exact .error (hx.fits e hx')
  | ok r =>
    refine .ok ?_ _ _
    rw [hf]
    exact hx.passes r hx'

theorem map {x : Except ReadError α} {f : α → Parsed Char β n}
    (hok : ∀ v, x = .ok v → Passes k cs (f v).rest) (herror : ∀ e, x = .error e → e.Fits room cs) :
    Reads room k cs (x.map f) := by
  cases hx : x with
  | error e => exact .error (herror e hx)
  | ok v => exact .ok (hok v hx) _ _

end Reads

/-! ## Strings -/

theorem error_of_prepend {p : CodePoint} {later : Except ReadError (Text × List Char)}
    (h : prepend p later = .error e) : later = .error e := by
  cases later with
  | error e' => exact h
  | ok r => cases h

/-- An error inside a string points to the string or to something in it. -/
theorem fits_of_stringBody {opening : List Char} (h : stringBody opening cs = .error e)
    (hcs : cs <:+ opening) : e.Fits room opening := by
  fun_induction stringBody opening cs with
  | case1 =>
    cases h
    exact List.suffix_refl opening
  | case2 => cases h
  | case3 =>
    cases h
    exact List.suffix_refl opening
  | case4 a b c d e rest =>
    cases h
    exact (List.suffix_cons _ _).trans hcs
  -- What follows an escape is a part of the same string.
  | case5 a b c d e' rest _ _ ih =>
    have hrest : e' :: rest <:+ '\\' :: 'u' :: a :: b :: c :: d :: e' :: rest :=
      List.suffix_append ['\\', 'u', a, b, c, d] (e' :: rest)
    exact ih (error_of_prepend h) (hrest.trans hcs)
  | case6 rest =>
    cases h
    exact (List.suffix_cons _ _).trans hcs
  | case7 =>
    cases h
    exact hcs
  | case8 c rest _ _ _ _ ih =>
    have hrest : rest <:+ '\\' :: c :: rest := List.suffix_append ['\\', c] rest
    exact ih (error_of_prepend h) (hrest.trans hcs)
  | case9 =>
    cases h
    exact hcs
  | case10 c rest _ _ _ _ _ _ ih =>
    exact ih (error_of_prepend h) ((List.suffix_cons c rest).trans hcs)

-- The reader of a string starts behind the opening quote.
theorem reads_readString (room : Int) (cs : List Char) :
    Reads room 0 ('\x22' :: cs) (readString ('\x22' :: cs) cs) := by
  rw [readString]
  split
  · next h => exact .error (fits_of_stringBody h (List.suffix_cons _ _))
  · next h =>
    obtain ⟨piece, hpiece, hends⟩ := endsString_of_stringBody h
    refine .ok ?_ _ _
    rw [hpiece]
    exact .string hends _

/-! ## Numbers and words -/

theorem isNeutral_of_isDigit (h : c.isDigit = true) : IsNeutral c := by
  simp [IsNeutral, ne_of_isDigit _ h]

theorem isNeutral_of_mem_takeWhile (h : c ∈ cs.takeWhile Char.isDigit) : IsNeutral c :=
  isNeutral_of_isDigit (List.all_eq_true.1 List.all_takeWhile c h)

theorem passes_splitMinus (cs : List Char) : Passes 0 cs (splitMinus cs).2 := by
  unfold splitMinus
  split
  · next rest => exact .neutral (List.forall_mem_singleton.2 (by decide)) rest
  · exact .refl cs

theorem passes_wholeDigits (cs : List Char) : Passes 0 cs (cs.drop (wholeDigits cs).length) := by
  unfold wholeDigits
  split
  · next rest => exact .neutral (List.forall_mem_singleton.2 (by decide)) rest
  · exact .drop (fun _ => isNeutral_of_mem_takeWhile) (List.takeWhile_prefix _)

-- A part stands behind a mark of one character.
theorem passes_afterPart {part : List Char} (mark : Char) (hpart : part ≠ [] → mark :: part <+: cs)
    (hneutral : ∀ c ∈ mark :: part, IsNeutral c) : Passes 0 cs (afterPart part cs) := by
  unfold afterPart
  cases part with
  | nil => exact .refl cs
  | cons c part => exact .drop hneutral (hpart (List.cons_ne_nil c part))

theorem passes_fractionDigits (cs : List Char) :
    Passes 0 cs (afterPart (fractionDigits cs) cs) := by
  unfold fractionDigits
  split
  · next rest =>
    apply passes_afterPart '.'
    · exact fun _ => List.cons_prefix_cons.2 ⟨rfl, List.takeWhile_prefix _⟩
    · exact List.forall_mem_cons.2 ⟨by decide, fun _ => isNeutral_of_mem_takeWhile⟩
  · exact .refl cs

theorem isNeutral_of_mem_sign (h : c ∈ cs.takeWhile fun s => s = '+' || s = '-') :
    IsNeutral c := by
  have hsign := List.all_eq_true.1 List.all_takeWhile c h
  rw [Bool.or_eq_true, decide_eq_true_eq, decide_eq_true_eq] at hsign
  rcases hsign with rfl | rfl <;> decide

theorem append_takeWhile_prefix (h : w <+: cs) (p : Char → Bool) :
    w ++ (cs.drop w.length).takeWhile p <+: cs := by
  obtain ⟨more, rfl⟩ := h
  rw [List.drop_left]
  exact (List.prefix_append_right_inj w).2 (List.takeWhile_prefix p)

theorem passes_exponentPart (cs : List Char) : Passes 0 cs (afterPart (exponentPart cs) cs) := by
  cases cs with
  | nil => exact .refl []
  | cons c rest =>
    rw [exponentPart]
    split
    · next h =>
      have hmark : IsNeutral c := by rcases h.1 with rfl | rfl <;> decide
      apply passes_afterPart c
      · exact fun _ => List.cons_prefix_cons.2
          ⟨rfl, append_takeWhile_prefix (List.takeWhile_prefix _) Char.isDigit⟩
      · rw [List.forall_mem_cons, List.forall_mem_append]
        exact ⟨hmark, fun _ => isNeutral_of_mem_sign, fun _ => isNeutral_of_mem_takeWhile⟩
    · exact .refl _

theorem fits_of_numberOf {negative : Bool} {whole fraction exponent : List Char}
    (h : numberOf negative whole fraction exponent = .error e) : e.Fits room cs := by
  rw [numberOf] at h
  split at h
  · split at h
    · next hcount =>
      cases h
      exact hcount
    · cases h
  · cases h

/-- A number is read without a bracket. -/
theorem reads_readNumber (room : Int) (cs : List Char) : Reads room 0 cs (readNumber cs) := by
  unfold readNumber
  dsimp only
  split
  · exact .error (List.suffix_refl cs)
  · refine .map (fun v _ => ?_) fun e he => fits_of_numberOf he
    exact (((passes_splitMinus cs).trans (passes_wholeDigits _)).trans
      (passes_fractionDigits _)).trans (passes_exponentPart _)

theorem all_words_neutral :
    (words.all fun m => m.1.all fun c => decide (IsNeutral c)) = true := by
  decide

/-- A word or a number is read without a bracket. -/
theorem reads_readPlain (room : Int) (cs : List Char) : Reads room 0 cs (readPlain cs) := by
  rw [readPlain]
  split
  · next v rest h =>
    obtain ⟨⟨word, w⟩, hmem, hdrop⟩ := List.exists_of_findSome?_eq_some h
    obtain ⟨r, hr, he⟩ := Option.map_eq_some_iff.1 hdrop
    obtain ⟨rfl, rfl⟩ := Prod.mk.inj he
    have hneutral : ∀ c ∈ word, IsNeutral c := fun c hc =>
      of_decide_eq_true (List.all_eq_true.1 (List.all_eq_true.1 all_words_neutral _ hmem) c hc)
    refine .ok ?_ _ _
    rw [dropWord?_eq_some_iff.1 hr]
    exact .neutral hneutral _
  · exact reads_readNumber room cs

/-! ## Values -/

/-- The key of a member is read as a string. -/
theorem reads_readKey (room : Int) (cs : List Char) : Reads room 0 cs (readKey cs) := by
  unfold readKey
  split
  · next rest =>
    have hstring := reads_readString room rest
    exact .map hstring.passes hstring.fits
  · exact .error (List.suffix_refl cs)

-- What begins an array or an object takes one level of the room.
theorem Reads.enter (hc : c ∈ ['[', '\x7b']) {room : Nat}
    {f : Nat → Except ReadError (Parsed Char α n)}
    (hf : ∀ inner : Nat, Reads inner (-1) rest (f inner)) :
    Reads room 0 (c :: rest) (enter room >>= f) := by
  have hopening := Passes.opening hc rest
  cases room with
  | zero =>
    have hempty : ReadError.tooDeep.Fits (-1) rest := ⟨[], List.nil_prefix, by decide⟩
    exact .error (hempty.of_passes hopening)
  | succ inner => exact (hf inner).of_passes hopening

theorem Reads.after {x : Except ReadError (Parsed Char α n)} (hx : Reads room k ds x)
    (h : Passes 0 cs ds) : Reads room k cs x := by
  have hall := hx.of_passes h
  rwa [Int.add_zero, Int.zero_add] at hall

theorem passes_separator (hc : IsNeutral c) (h : skip cs = c :: rest) :
    Passes 0 cs (skip rest) := by
  have hskip := passes_skip cs
  rw [h] at hskip
  exact (hskip.trans (.neutral (List.forall_mem_singleton.2 hc) rest)).trans (passes_skip rest)

/-- Behind space, a bracket or brace leaves one less open. -/
theorem passes_closing (hc : c ∈ [']', '\x7d']) (h : skip cs = c :: rest) :
    Passes (-1) cs rest := by
  have hskip := passes_skip cs
  rw [h] at hskip
  exact hskip.trans (.closing hc rest)

-- What is left behind a part and a mark is shorter than the whole.
theorem length_skip_lt (part : Parsed Char α cs.length) (h : skip part.rest = c :: rest) :
    (skip rest).length < cs.length := by
  have hpart := part.lt_bound
  have hskip := length_skip_le part.rest
  have hrest := length_skip_le rest
  rw [h, List.length_cons] at hskip
  omega

mutual

/-- A value ends with as many arrays and objects open as before; the induction follows the
reader. -/
theorem reads_readValue (room : Nat) (cs : List Char) : Reads room 0 cs (readValue room cs) := by
  unfold readValue
  split
  · next rest => exact (reads_readString room rest).bind_pure fun _ => rfl
  · next rest =>
    have hshort := length_skip_le rest
    refine .enter (by decide) fun inner => ?_
    dsimp only
    split
    · next h => exact .ok (passes_closing (by decide) h) _ _
    · exact ((reads_readMembers inner (skip rest)).after (passes_skip rest)).bind_pure fun _ => rfl
  · next rest =>
    have hshort := length_skip_le rest
    refine .enter (by decide) fun inner => ?_
    dsimp only
    split
    · next h => exact .ok (passes_closing (by decide) h) _ _
    · exact ((reads_readItems inner (skip rest)).after (passes_skip rest)).bind_pure fun _ => rfl
  · exact reads_readPlain room cs
termination_by (cs.length, 0)
decreasing_by all_goals (subst_vars; decreasing_tactic)

/-- Items end with the bracket that closes their array. -/
theorem reads_readItems (room : Nat) (cs : List Char) :
    Reads room (-1) cs (readItems room cs) := by
  unfold readItems
  refine (reads_readValue room cs).bind fun item _ => ?_
  dsimp only
  split
  · next h => exact .ok (passes_closing (by decide) h) _ _
  · next after h =>
    have hshort := length_skip_lt item h
    exact ((reads_readItems room (skip after)).after
      (passes_separator (by decide) h)).bind_pure fun _ => rfl
  · exact .error (passes_skip item.rest).suffix
termination_by (cs.length, 1)

theorem reads_readMember (room : Nat) (cs : List Char) :
    Reads room 0 cs (readMember room cs) := by
  unfold readMember
  refine (reads_readKey room cs).bind fun key _ => ?_
  dsimp only
  split
  · next after h =>
    have hshort := length_skip_lt key h
    exact ((reads_readValue room (skip after)).after
      (passes_separator (by decide) h)).bind_pure fun _ => rfl
  · exact .error (passes_skip key.rest).suffix
termination_by (cs.length, 0)

/-- Members end with the brace that closes their object. -/
theorem reads_readMembers (room : Nat) (cs : List Char) :
    Reads room (-1) cs (readMembers room cs) := by
  unfold readMembers
  refine (reads_readMember room cs).bind fun member _ => ?_
  dsimp only
  split
  · next h => exact .ok (passes_closing (by decide) h) _ _
  · next after h =>
    have hshort := length_skip_lt member h
    exact ((reads_readMembers room (skip after)).after
      (passes_separator (by decide) h)).bind_pure fun _ => rfl
  · exact .error (passes_skip member.rest).suffix
termination_by (cs.length, 1)

end

/-- A text that is refused is so for what its error says. -/
theorem fits_of_read {room : Nat} (h : read room cs = .error e) : e.Fits room cs := by
  rw [read] at h
  split at h
  · cases h
    exact List.suffix_refl cs
  · have hvalue := (reads_readValue room (skip cs)).after (passes_skip cs)
    rw [Except.bind_eq_error_iff] at h
    rcases h with h | ⟨v, hv, h⟩
    · exact hvalue.fits e h
    · split at h
      · cases h
      · cases h
        exact (passes_skip v.rest).suffix.trans (hvalue.passes v hv).suffix

/-! ## Nested arrays -/

/-- An array cannot be read if its first item cannot. -/
theorem readItems_error {room : Nat} (h : readValue room cs = .error e) :
    readItems room cs = .error e := by
  rw [readItems, h]
  rfl

theorem readValue_array_error {room : Nat} (hne : (skip rest).head? ≠ some ']')
    (h : readItems room (skip rest) = .error e) :
    readValue (room + 1) ('[' :: rest) = .error e := by
  rw [readValue]
  simp only [enter, bind, Except.bind]
  split
  · next heq => exact absurd (congrArg List.head? heq) hne
  · rw [h]

/-- More brackets than there is room for are too many, whatever stands behind them. -/
theorem readValue_replicate {room : Nat} (h : room < n) :
    readValue room (List.replicate n '[' ++ cs) = .error .tooDeep := by
  induction n generalizing room with
  | zero => exact absurd h (Nat.not_lt_zero room)
  | succ n ih =>
    rw [List.replicate_succ, List.cons_append]
    cases room with
    | zero =>
      rw [readValue]
      rfl
    | succ room =>
      obtain ⟨k, rfl⟩ : ∃ k, n = k + 1 := ⟨n - 1, by omega⟩
      have hskip : skip (List.replicate (k + 1) '[' ++ cs) = List.replicate (k + 1) '[' ++ cs := rfl
      apply readValue_array_error
      · rw [hskip]
        exact fun hhead => absurd (Option.some.inj hhead) (by decide)
      · rw [hskip]
        exact readItems_error (ih (Nat.lt_of_succ_lt_succ h))

end LetFun.Json
