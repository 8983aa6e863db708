import LetFun.Proofs.Yaml.Faults
import LetFun.Yaml.Graph
/-!
# Faults of tokens

The nodes of a document are read from its tokens. A reader goes over a piece of them that ends each
collection that it begins, and what it refuses is in them: a fault, or more collections begun than
there is room for (`fits_of_ofTokens`). A pair in brackets, and a sequence as far in as the key
before it, begin without a token of their own, but never two of them inside each other; so each
token that begins a collection stands for two levels at most.
-/

namespace LetFun.Yaml

def Token.opens : Token → Bool
  | .blockSequenceStart | .blockMappingStart | .flowSequenceStart | .flowMappingStart => true
  | _ => false

def Token.closes : Token → Bool
  | .blockEnd | .flowSequenceEnd | .flowMappingEnd => true
  | _ => false

/-- How many more collections tokens begin than they end. -/
def openAt (ts : List Token) : Int :=
  ts.countP Token.opens - ts.countP Token.closes

variable {α β : Type} {k l room room' : Int} {m n : Nat} {ts us vs rest : List Token} {t : Token}
  {f : Fault}

/-! ## Pieces of a document -/

/-- Two lists of tokens begin and end collections one after the other. -/
theorem openAt_append (ts us : List Token) : openAt (ts ++ us) = openAt ts + openAt us := by
  simp only [openAt, List.countP_append]
  omega

/-- Tokens go on with the rest after a piece that leaves `k` more collections open. -/
def Passes (k : Int) (ts rest : List Token) : Prop :=
  ∃ piece, ts = piece ++ rest ∧ openAt piece = k

namespace Passes

theorem refl (ts : List Token) : Passes 0 ts ts :=
  ⟨[], rfl, rfl⟩

/-- Two pieces in a row leave open what both of them do. -/
theorem trans (h : Passes k ts us) (h' : Passes l us vs) : Passes (k + l) ts vs := by
  obtain ⟨piece, rfl, rfl⟩ := h
  obtain ⟨piece', rfl, rfl⟩ := h'
  exact ⟨piece ++ piece', by simp, openAt_append piece piece'⟩

theorem one (t : Token) (rest : List Token) : Passes (openAt [t]) (t :: rest) rest :=
  ⟨[t], rfl, rfl⟩

theorem of_eq (h : ts = us) : Passes 0 ts us :=
  h ▸ refl ts

theorem suffix (h : Passes k ts rest) : rest <:+ ts := by
  obtain ⟨piece, rfl, -⟩ := h
  exact List.suffix_append piece rest

end Passes

/-! ## What a fault says about the tokens -/

inductive Fault.Fits (room : Int) (ts : List Token) : Fault → Prop where
  | listed {f : Fault} (h : .fault f ∈ ts) : Fits room ts f
  | tooDeep {before : List Token} (hbefore : before <+: ts) (hroom : room < 2 * openAt before) :
    Fits room ts .tooDeep

-- What is open before a piece is open in it.
theorem Fault.Fits.of_passes (h : f.Fits room us) (hp : Passes k ts us) :
    f.Fits (room + 2 * k) ts := by
  cases h with
  | listed hmem => exact .listed (hp.suffix.mem hmem)
  | @tooDeep before hbefore hroom =>
    obtain ⟨piece, rfl, rfl⟩ := hp
    refine .tooDeep ((List.prefix_append_right_inj piece).2 hbefore) ?_
    rw [openAt_append]
    omega

/-- Where there is less room, too many levels are too many as well. -/
theorem Fault.Fits.mono (h : f.Fits room ts) (hle : room' ≤ room) : f.Fits room' ts := by
  cases h with
  | listed hmem => exact .listed hmem
  | tooDeep hbefore hroom => exact .tooDeep hbefore (Int.lt_of_le_of_lt hle hroom)

theorem Fault.Fits.after (h : f.Fits room us) (hp : Passes 0 ts us) : f.Fits room ts := by
  have hall := h.of_passes hp
  rwa [Int.mul_zero, Int.add_zero] at hall

theorem Yields.after {x : Except Fault α} {Q : α → Prop} (hx : Yields (Fault.Fits room us) Q x)
    (hp : Passes 0 ts us) : Yields (Fault.Fits room ts) Q x :=
  hx.mono (fun _ hf => hf.after hp) fun _ ha => ha

theorem yields_misplaced {Q : α → Prop} (ts : List Token) :
    Yields (Fault.Fits room ts) Q (.error (misplaced ts)) := by
  unfold misplaced
  split
  · exact .error (.listed List.mem_cons_self)
  · exact .malformed

/-- A reader goes over a piece of the tokens that leaves `k` more collections open, or its fault
fits the tokens. -/
def Reads (room k : Int) (ts : List Token) (x : Except Fault (Parsed Token α n)) : Prop :=
  Yields (Fault.Fits room ts) (fun r => Passes k ts r.rest) x

namespace Reads

theorem ok {v : α} {hlt : rest.length < n} (h : Passes k ts rest) :
    Reads room k ts (.ok ⟨v, rest, hlt⟩ : Except Fault (Parsed Token α n)) :=
  Yields.ok h

theorem mono {x : Except Fault (Parsed Token α n)} (hx : Reads room k ts x) (hle : room' ≤ room) :
    Reads room' k ts x :=
  Yields.mono hx (fun _ hf => hf.mono hle) fun _ hr => hr

/-- Every collection that is open takes two levels of the room. -/
theorem of_passes {x : Except Fault (Parsed Token α n)} (hx : Reads room l us x)
    (h : Passes k ts us) : Reads (room + 2 * k) (k + l) ts x :=
  Yields.mono hx (fun _ hf => hf.of_passes h) fun _ hr => h.trans hr

theorem after {x : Except Fault (Parsed Token α n)} (hx : Reads room k us x)
    (h : Passes 0 ts us) : Reads room k ts x := by
  have hall := hx.of_passes h
  rwa [Int.mul_zero, Int.add_zero, Int.zero_add] at hall

/-- Two readers in a row go over two pieces, and the first leaves as much room as it found. -/
theorem bind {x : Except Fault (Parsed Token α m)}
    {g : Parsed Token α m → Except Fault (Parsed Token β n)} (hx : Reads room 0 ts x)
    (hg : ∀ r, Reads room k r.rest (g r)) : Reads room k ts (x >>= g) :=
  Yields.bind hx fun r _ hr => (hg r).after hr

theorem bind_pure {x : Except Fault (Parsed Token α m)}
    {g : Parsed Token α m → Parsed Token β n} (hx : Reads room k ts x)
    (hg : ∀ r, (g r).rest = r.rest) : Reads room k ts (x >>= fun r => .ok (g r)) :=
  Yields.bind hx fun r _ hr => Yields.ok ((hg r).symm ▸ hr)

/-- A part that is built goes over the same tokens. -/
theorem built {x : Except Fault (Parsed Token (α × Graph) m)} {f : Parsed Token (α × Graph) m →
    α → Graph → β × Graph} (hx : Reads room k ts x) (h : m ≤ n) :
    Reads room k ts (x >>= fun r => Yaml.built (f r) r h) :=
  hx.bind_pure fun _ => rfl

end Reads

/-! ## Parts of nodes -/

theorem faultsIn_add {P : Fault → Prop} (g : Graph) (anchor : Option String) (n : Node) :
    FaultsIn P (g.add anchor n) := by
  unfold Graph.add
  dsimp only
  split
  · exact .ok trivial
  · exact .ite (fun _ => .malformed) fun _ => .ok trivial

theorem faultsIn_tagName {P : Fault → Prop} (handles : List (String × String))
    (tag : Option TagText) : FaultsIn P (tag.mapM (tagName handles)) := by
  cases tag with
  | none => exact .ok trivial
  | some t =>
    refine .andThen (x := tagName handles t) ?_ fun _ => .ok trivial
    unfold tagName
    split
    · exact .ok trivial
    · split
      · exact .ok trivial
      · exact .malformed

theorem faultsIn_checkNext (ts : List Token) : FaultsIn (Fault.Fits room ts) (checkNext ts) := by
  unfold checkNext
  split
  · exact .error (.listed List.mem_cons_self)
  · exact .ok trivial

-- The readers of what may be missing look whether a fault comes instead.
theorem Reads.checkNext {v : α} {hlt : rest.length < n} (h : Passes 0 ts rest) :
    Reads room 0 ts (checkNext rest >>= fun _ => .ok ⟨v, rest, hlt⟩) :=
  Yields.andThen ((faultsIn_checkNext rest).after h) fun _ => .ok h

/-- An anchor and a tag begin and end no collection. -/
theorem reads_readProperties (room : Int) (ts : List Token) :
    Reads room 0 ts (readProperties ts) := by
  unfold readProperties
  split
  · exact .ok ((Passes.one _ _).trans (.one _ _))
  · exact .ok ((Passes.one _ _).trans (.one _ _))
  · exact .checkNext (.one _ _)
  · exact .checkNext (.one _ _)
  · exact .checkNext (.refl _)

theorem reads_readSeparator (room : Int) (isFirst : Bool) (close : Token) (ts : List Token) :
    Reads room 0 ts (readSeparator isFirst close ts) := by
  unfold readSeparator
  refine Yields.ite (fun _ => .ok (Passes.refl ts)) fun _ => ?_
  split
  · exact .ok (.one _ _)
  · exact yields_misplaced _

-- A token that begins a collection gives two levels and takes one.
theorem Reads.enter (ht : openAt [t] = 1) {room : Nat}
    {g : Nat → Except Fault (Parsed Token α n)}
    (hg : ∀ inner : Nat, Reads (inner - 1) (-1) rest (g inner)) :
    Reads room 0 (t :: rest) (enter room >>= g) := by
  have hopening := Passes.one t rest
  rw [ht] at hopening
  cases room with
  | zero =>
    have hempty : Fault.tooDeep.Fits (-2) rest := .tooDeep List.nil_prefix (by decide)
    exact Yields.error (hempty.of_passes hopening)
  | succ inner => exact ((hg inner).of_passes hopening).mono (by omega)

-- A collection without a token of its own takes one level.
theorem Reads.enterUnmarked {room : Nat} {g : Nat → Except Fault (Parsed Token α n)}
    (hg : ∀ inner : Nat, inner + 1 = room → Reads inner k ts (g inner)) :
    Reads (room - 1) k ts (Yaml.enter room >>= g) := by
  cases room with
  | zero => exact Yields.error (.tooDeep List.nil_prefix (by decide))
  | succ inner => exact (hg inner rfl).mono (by omega)

/-! ## Nodes -/

/-- How many levels a node in a context can take before a token begins a collection. -/
def Context.unmarked : Context → Int
  | .blockEntryValue => 1
  | .flow | .block => 0

theorem Context.unmarked_nonneg (context : Context) : 0 ≤ context.unmarked := by
  cases context <;> decide

-- The induction on the readers goes on behind the next token.
theorem length_lt_of_rest_eq {n : Nat} {r : Parsed Token α (n + 1)} (h : r.rest = t :: rest) :
    rest.length < n := by
  have hlt := r.lt_bound
  rw [h] at hlt
  exact Nat.lt_of_succ_lt_succ hlt

mutual

/-- A node ends with as many collections open as before; the induction follows the reader. -/
theorem reads_readNode (handles : List (String × String)) (room : Nat) (context : Context)
    (g : Graph) (ts : List Token) :
    Reads (room - context.unmarked) 0 ts (readNode handles room context g ts) := by
  have hunmarked := context.unmarked_nonneg
  unfold readNode
  split
  · split
    · exact .ok (.one _ _)
    · exact Yields.malformed
  -- Behind the properties, the next token decides what kind of node this is.
  · refine .bind (reads_readProperties _ ts) fun props => ?_
    have hprops := props.lt_bound
    refine Yields.andThen (faultsIn_tagName handles _) fun name => ?_
    dsimp only
    split
    · next hbody =>
      exact Yields.error (.listed (hbody ▸ List.mem_cons_self))
    · next hbody =>
      exact Yields.andThen (faultsIn_add _ _ _) fun _ => .ok ((Passes.of_eq hbody).trans (.one _ _))
    · next rest hbody =>
      have hrest := length_lt_of_rest_eq hbody
      refine Yields.andThen (faultsIn_add _ _ _) fun part => ?_
      refine ((Reads.enter rfl fun inner => ?_).mono (by omega)).after (Passes.of_eq hbody)
      exact (reads_readFlowItems handles inner part.2 true rest).built _
    · next rest hbody =>
      have hrest := length_lt_of_rest_eq hbody
      refine Yields.andThen (faultsIn_add _ _ _) fun part => ?_
      refine ((Reads.enter rfl fun inner => ?_).mono (by omega)).after (Passes.of_eq hbody)
      exact (reads_readFlowEntries handles inner part.2 true rest).built _
    · next rest hbody =>
      have hrest := length_lt_of_rest_eq hbody
      refine Yields.ite (fun _ => .malformed) fun _ => ?_
      refine Yields.andThen (faultsIn_add _ _ _) fun part => ?_
      refine ((Reads.enter rfl fun inner => ?_).mono (by omega)).after (Passes.of_eq hbody)
      exact (reads_readBlockItems handles inner part.2 rest).built _
    · next rest hbody =>
      have hrest := length_lt_of_rest_eq hbody
      refine Yields.ite (fun _ => .malformed) fun _ => ?_
      refine Yields.andThen (faultsIn_add _ _ _) fun part => ?_
      refine ((Reads.enter rfl fun inner => ?_).mono (by omega)).after (Passes.of_eq hbody)
      exact (reads_readBlockEntries handles inner part.2 rest).built _
    · refine Yields.ite (fun hopen => ?_) fun _ => Yields.dite (fun _ => ?_) fun _ => .malformed
      -- An open sequence begins without a token, and only in the value of a block entry.
      · have hcontext : context = .blockEntryValue :=
          of_decide_eq_true (Bool.and_eq_true_iff.1 hopen).1
        rw [hcontext]
        refine Yields.andThen (faultsIn_add _ _ _) fun part => Reads.enterUnmarked fun inner _ => ?_
        refine Yields.bind (reads_readOpenItems handles inner part.2 _) fun items _ hitems => ?_
        exact Yields.dite (fun _ => .ok hitems) fun _ => .malformed
      · exact Yields.andThen (faultsIn_add _ _ _) fun _ => .ok (Passes.refl _)
termination_by 4 * ts.length + 1

theorem reads_readNodeOrEmpty (handles : List (String × String)) (room : Nat)
    (context : Context) (stops : List Token) (g : Graph) (ts : List Token) :
    Reads (room - context.unmarked) 0 ts (readNodeOrEmpty handles room context stops g ts) := by
  unfold readNodeOrEmpty
  exact Yields.ite (fun _ => .ok (Passes.refl ts)) fun _ =>
    (reads_readNode handles room context g ts).bind_pure fun _ => rfl
termination_by 4 * ts.length + 2

theorem reads_readValue (handles : List (String × String)) (room : Nat) (context : Context)
    (stops : List Token) (g : Graph) (ts : List Token) :
    Reads (room - context.unmarked) 0 ts (readValue handles room context stops g ts) := by
  unfold readValue
  split
  · next rest =>
    exact ((reads_readNodeOrEmpty handles room context stops g rest).after
      (.one .value rest)).bind_pure fun _ => rfl
  · exact .checkNext (.refl _)
termination_by 4 * ts.length + 3

/-- Block items end with the token that ends their sequence. -/
theorem reads_readBlockItems (handles : List (String × String)) (room : Nat) (g : Graph)
    (ts : List Token) : Reads (room - 1) (-1) ts (readBlockItems handles room g ts) := by
  unfold readBlockItems
  split
  · next rest =>
    refine Reads.after ?_ (.one .blockEntry rest)
    refine .bind ((reads_readNodeOrEmpty handles room .block _ g rest).mono
      (Int.sub_le_sub_left (by decide) _)) fun item => ?_
    have hitem := item.lt_bound
    exact (reads_readBlockItems handles room item.value.2 item.rest).built _
  · exact .ok (.one _ _)
  · exact yields_misplaced _
termination_by 4 * ts.length + 0
decreasing_by all_goals (subst_vars; simp only [List.length_cons]; omega)

/-- Items without an end of their own stop before a token that ends an outer collection. -/
theorem reads_readOpenItems (handles : List (String × String)) (room : Nat) (g : Graph)
    (ts : List Token) : Reads room 0 ts (readOpenItems handles room g ts) := by
  unfold readOpenItems
  split
  · next rest =>
    refine Reads.after ?_ (.one .blockEntry rest)
    refine .bind ((reads_readNodeOrEmpty handles room .block _ g rest).mono
      (Int.le_of_eq (Int.sub_zero _).symm)) fun item => ?_
    have hitem := item.lt_bound
    exact (reads_readOpenItems handles room item.value.2 item.rest).built _
  · exact .checkNext (.refl _)
termination_by 4 * ts.length + 0
decreasing_by all_goals (subst_vars; simp only [List.length_cons]; omega)

theorem reads_readBlockEntries (handles : List (String × String)) (room : Nat) (g : Graph)
    (ts : List Token) : Reads (room - 1) (-1) ts (readBlockEntries handles room g ts) := by
  unfold readBlockEntries
  split
  · next rest =>
    refine Reads.after ?_ (.one .key rest)
    refine .bind (reads_readNodeOrEmpty handles room .blockEntryValue _ g rest) fun key => ?_
    have hkey := key.lt_bound
    refine .bind (reads_readValue handles room .blockEntryValue _ key.value.2 key.rest)
      fun value => ?_
    have hvalue := value.lt_bound
    exact (reads_readBlockEntries handles room value.value.2 value.rest).built _
  · exact .ok (.one _ _)
  · exact yields_misplaced _
termination_by 4 * ts.length + 0
decreasing_by all_goals (subst_vars; simp only [List.length_cons]; omega)

/-- Bracketed items end with the bracket that closes them. -/
theorem reads_readFlowItems (handles : List (String × String)) (room : Nat) (g : Graph)
    (isFirst : Bool) (ts : List Token) :
    Reads (room - 1) (-1) ts (readFlowItems handles room g isFirst ts) := by
  unfold readFlowItems
  refine .bind (reads_readSeparator _ isFirst .flowSequenceEnd ts) fun start => ?_
  have hstart := start.lt_bound
  dsimp only
  split
  · next hbody => exact .ok ((Passes.of_eq hbody).trans (.one _ _))
  · next rest hbody =>
    have hrest := length_lt_of_rest_eq hbody
    refine Reads.after ?_ ((Passes.of_eq hbody).trans (.one _ _))
    -- The pair is a mapping without a token of its own. It takes one level; its key and value are
    -- read in the context of brackets, where none can follow that does so too.
    refine Reads.enterUnmarked fun inner hinner => ?_
    refine Yields.andThen (faultsIn_add _ _ _) fun part => ?_
    refine Reads.bind ((reads_readNodeOrEmpty handles inner .flow _ part.2 rest).mono
      (Int.le_of_eq (Int.sub_zero _).symm)) fun key => ?_
    have hkey := key.lt_bound
    refine Reads.bind ((reads_readValue handles inner .flow _ key.value.2 key.rest).mono
      (Int.le_of_eq (Int.sub_zero _).symm)) fun value => ?_
    have hvalue := value.lt_bound
    exact ((reads_readFlowItems handles room _ false value.rest).built _).mono (by omega)
  · refine .bind ((reads_readNode handles room .flow g _).mono
      (Int.sub_le_sub_left (by decide) _)) fun item => ?_
    have hitem := item.lt_bound
    exact (reads_readFlowItems handles room item.value.2 false item.rest).built _
termination_by 4 * ts.length + 2

theorem reads_readFlowEntries (handles : List (String × String)) (room : Nat) (g : Graph)
    (isFirst : Bool) (ts : List Token) :
    Reads (room - 1) (-1) ts (readFlowEntries handles room g isFirst ts) := by
  unfold readFlowEntries
  refine .bind (reads_readSeparator _ isFirst .flowMappingEnd ts) fun start => ?_
  have hstart := start.lt_bound
  dsimp only
  split
  · next hbody => exact .ok ((Passes.of_eq hbody).trans (.one _ _))
  · next rest hbody =>
    have hrest := length_lt_of_rest_eq hbody
    refine Reads.after ?_ ((Passes.of_eq hbody).trans (.one _ _))
    refine Reads.bind ((reads_readNodeOrEmpty handles room .flow _ g rest).mono
      (Int.sub_le_sub_left (by decide) _)) fun key => ?_
    have hkey := key.lt_bound
    refine Reads.bind ((reads_readValue handles room .flow _ key.value.2 key.rest).mono
      (Int.sub_le_sub_left (by decide) _)) fun value => ?_
    have hvalue := value.lt_bound
    exact (reads_readFlowEntries handles room value.value.2 false value.rest).built _
  · refine .bind ((reads_readNode handles room .flow g _).mono
      (Int.sub_le_sub_left (by decide) _)) fun key => ?_
    have hkey := key.lt_bound
    exact (reads_readFlowEntries handles room _ false key.rest).built _
termination_by 4 * ts.length + 2

end

/-! ## Documents -/

/-- Directives begin and end no collection. -/
theorem passes_readDirectives {P : Fault → Prop} (versionSeen : Bool)
    (handles : List (String × String)) (ts : List Token) :
    Yields P (fun r => Passes 0 ts r.2) (readDirectives versionSeen handles ts) := by
  fun_induction readDirectives versionSeen handles ts with
  | case1 => exact .malformed
  | case2 _ _ _ _ _ ih => exact ih.mono (fun _ hf => hf) fun _ hr => (Passes.one _ _).trans hr
  | case3 => exact .malformed
  | case4 _ _ _ _ _ _ ih => exact ih.mono (fun _ hf => hf) fun _ hr => (Passes.one _ _).trans hr
  | case5 _ _ _ ih => exact ih.mono (fun _ hf => hf) fun _ hr => (Passes.one _ _).trans hr
  | case6 => exact .ok (Passes.refl _)

/-- A document ends with no collection open. -/
theorem passes_readRoot [CallStack] (handles : List (String × String)) (mayBeMissing : Bool)
    (ts : List Token) : Yields (Fault.Fits CallStack.composed ts) (fun r => Passes 0 ts r.2)
      (readRoot handles mayBeMissing ts) := by
  unfold readRoot
  refine .ite (fun _ => .ok (Passes.refl ts)) fun _ => ?_
  refine .bind ((reads_readNode handles _ .block _ ts).mono ?_) fun _ _ hr => .ok hr
  exact Int.le_of_eq (Int.sub_zero _).symm

theorem faultsIn_readEnd (ts : List Token) : FaultsIn (Fault.Fits room ts) (readEnd ts) := by
  fun_induction readEnd ts with
  | case1 => exact .ok trivial
  | case2 rest ih => exact ih.after (.one _ _)
  | case3 ts _ _ =>
    refine .bind (passes_readDirectives false [] ts) fun r _ hr => ?_
    exact (yields_misplaced r.2).after hr

/-- The nodes of a document are missing only for a fault that fits its tokens. -/
theorem fits_of_ofTokens [CallStack] (h : Document.ofTokens ts = .error f)
    (hne : f ≠ .malformed) : f.Fits CallStack.composed ts := by
  suffices hall : FaultsIn (Fault.Fits CallStack.composed ts) (Document.ofTokens ts) from
    hall.fault f h hne
  unfold Document.ofTokens
  split
  · exact .ok trivial
  · extract_lets finish
    have hfinish : ∀ r : Document × List Token, Passes 0 ts r.2 →
        FaultsIn (Fault.Fits CallStack.composed ts) (finish r) := fun r hr =>
      .andThen ((faultsIn_readEnd r.2).after hr) fun _ => .ok trivial
    split
    case h_1 | h_2 =>
      -- A stream that starts with a directive or with a document goes on in the same way.
      refine .bind (passes_readDirectives false [] _) fun r _ hr => ?_
      obtain ⟨handles, afterDirectives⟩ := r
      dsimp only
      split
      · have hbody := hr.trans (.one .documentStart _)
        exact .bind ((passes_readRoot _ true _).after hbody) fun root _ hroot =>
          hfinish root (hbody.trans hroot)
      · exact .bind ((yields_misplaced _).after hr) fun _ _ => False.elim
    case h_3 => exact .bind (passes_readRoot _ _ _) fun root _ => hfinish root

end LetFun.Yaml
