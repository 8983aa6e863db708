import LetFun.Proofs.Reader
import LetFun.Yaml.Token.Scan
/-!
# Faults of characters

The tokens of a stream are read from its characters alone. If a fault ends them, the characters are
not of the form of a stream, an escape is the number of no code point, or a number of a version has
too many digits (`ofCharacters_of_mem_tokenize`).
-/

namespace LetFun.Yaml

variable {α β : Type} {P P' : Fault → Prop} {Q R : α → Prop} {f : Fault} {t : Token} {c : Cursor}
  {s : Scan}

/-! ## Steps -/

/-- A step that does not fail returns something with a property. If it fails, what it reads is
malformed, or the fault is one of a kind. -/
structure Yields (P : Fault → Prop) (Q : α → Prop) (x : Except Fault α) : Prop where
  fault : ∀ f, x = .error f → f ≠ .malformed → P f
  result : ∀ a, x = .ok a → Q a

def FaultsIn (P : Fault → Prop) (x : Except Fault α) : Prop :=
  Yields P (fun _ => True) x

namespace Yields

variable {x y : Except Fault α} {g : α → Except Fault β} {S : β → Prop} {p : Prop} [Decidable p]

theorem ok {a : α} (h : Q a) : Yields P Q (.ok a) := by
  refine ⟨fun _ he => (nomatch he), ?_⟩
  rintro _ ⟨⟩
  exact h

theorem error (h : P f) : Yields P Q (.error f : Except Fault α) := by
  refine ⟨?_, fun _ ha => (nomatch ha)⟩
  rintro _ ⟨⟩ _
  exact h

theorem malformed : Yields P Q (.error .malformed : Except Fault α) := by
  refine ⟨?_, fun _ ha => (nomatch ha)⟩
  rintro _ ⟨⟩ hne
  exact absurd rfl hne

/-- Two steps in a row have the faults of both, and the second may count on what the first
returns. -/
theorem bind (hx : Yields P Q x) (hg : ∀ a, x = .ok a → Q a → Yields P S (g a)) :
    Yields P S (x >>= g) := by
  cases hx' : x with
  | error e =>
    refine ⟨?_, fun _ ha => (nomatch ha)⟩
    rintro _ ⟨⟩ hne
    exact hx.fault e hx' hne
  | ok a => exact hg a hx' (hx.result a hx')

theorem andThen (hx : FaultsIn P x) (hg : ∀ a, Yields P S (g a)) : Yields P S (x >>= g) :=
  hx.bind fun a _ _ => hg a

/-- Fewer faults and a stronger property are a case of more faults and a weaker one. -/
theorem mono (hx : Yields P Q x) (hP : ∀ f, P f → P' f) (hQ : ∀ a, Q a → R a) : Yields P' R x :=
  ⟨fun f he hne => hP f (hx.fault f he hne), fun a ha => hQ a (hx.result a ha)⟩

theorem ite (hx : p → Yields P Q x) (hy : ¬p → Yields P Q y) :
    Yields P Q (if p then x else y) := by
  by_cases hp : p
  · rw [if_pos hp]
    exact hx hp
  · rw [if_neg hp]
    exact hy hp

theorem dite {x : p → Except Fault α} {y : ¬p → Except Fault α} (hx : ∀ hp, Yields P Q (x hp))
    (hy : ∀ hp, Yields P Q (y hp)) : Yields P Q (if hp : p then x hp else y hp) := by
  by_cases hp : p
  · rw [dif_pos hp]
    exact hx hp
  · rw [dif_neg hp]
    exact hy hp

end Yields

/-- A fault that characters can have, apart from their form: an escape is the number of no code
point, or a number of a version has too many digits. -/
inductive Fault.OfCharacters : Fault → Prop where
  | escape {code : Nat} (h : 0x10ffff < code) : OfCharacters (.escapeTooLarge code)
  | version {count : Nat} (h : digitLimit < count) : OfCharacters (.tooManyDigits count)

/-! ## Scalars -/

theorem faultsIn_quotedBreaks (c : Cursor) : FaultsIn Fault.OfCharacters (quotedBreaks c) := by
  fun_induction quotedBreaks c with
  | case1 => exact .malformed
  | case2 => exact .ok trivial
  | case3 _ _ _ _ _ ih => exact .andThen ih fun _ => .ok trivial

theorem faultsIn_quotedGap (c : Cursor) : FaultsIn Fault.OfCharacters (quotedGap c) := by
  unfold quotedGap
  dsimp only
  split
  · exact .ok trivial
  · exact .andThen (faultsIn_quotedBreaks _) fun _ => .ok trivial

/-- An escape has a number too large for a code point, or no fault. -/
theorem faultsIn_pointOfCode (code : Nat) : FaultsIn Fault.OfCharacters (pointOfCode code) := by
  unfold pointOfCode
  exact .ite (fun h => .error (.escape h)) fun _ => .ok trivial

theorem faultsIn_quotedEscape (c : Cursor) : FaultsIn Fault.OfCharacters (quotedEscape c) := by
  unfold quotedEscape
  split
  · exact .malformed
  · split
    · exact .ok trivial
    · dsimp only
      split
      · exact .malformed
      · exact .ite (fun _ => .malformed) fun _ =>
          .andThen (faultsIn_pointOfCode _) fun _ => .ok trivial
    · split
      · exact .malformed
      · exact .andThen (faultsIn_quotedBreaks _) fun _ => .ok trivial

/-- A quoted scalar fails for its characters only. -/
theorem faultsIn_quotedFrom (quoteMark : Char) (c : Cursor) :
    FaultsIn Fault.OfCharacters (quotedFrom quoteMark c) := by
  -- What follows a part is shorter than the text from the part on.
  have hgoOn : ∀ part : Text × Cursor, FaultsIn Fault.OfCharacters
      (if _h : part.2.rest.length < c.rest.length then do
        let more ← quotedFrom quoteMark part.2
        return (part.1 ++ more.1, more.2)
      else .error .malformed) := fun part =>
    .dite (fun _ => .andThen (faultsIn_quotedFrom quoteMark part.2) fun _ => .ok trivial)
      fun _ => .malformed
  unfold quotedFrom
  dsimp only
  split
  · exact .malformed
  · rename_i ch rest _
    refine .ite (fun _ => .ite (fun _ => ?_) fun _ => .ok trivial) fun _ => ?_
    · exact hgoOn ([.scalar ch], c.advance 2)
    refine .ite (fun _ => .andThen (faultsIn_quotedEscape _) hgoOn) fun _ => ?_
    refine .ite (fun _ => .andThen (faultsIn_quotedGap _) fun gap => ?_) fun _ => ?_
    · exact hgoOn (Text.ofChars gap.1, gap.2)
    · exact hgoOn ([.scalar ch], c.next)
termination_by c.rest.length

theorem faultsIn_finishLine (c : Cursor) : FaultsIn Fault.OfCharacters (finishLine c) := by
  unfold finishLine
  dsimp only
  split
  · exact .ok trivial
  · exact .ite (fun _ => .ok trivial) fun _ => .malformed

theorem faultsIn_blockHeader (c : Cursor) : FaultsIn Fault.OfCharacters (blockHeader c) := by
  unfold blockHeader
  exact .ite (fun _ => .malformed) fun _ => .andThen (faultsIn_finishLine _) fun _ => .ok trivial

/-- A block scalar fails for its characters only. -/
theorem faultsIn_blockScalar (folded : Bool) (minColumn : Nat) (c : Cursor) :
    FaultsIn Fault.OfCharacters (blockScalar folded minColumn c) := by
  unfold blockScalar
  exact .andThen (faultsIn_blockHeader c) fun _ => .ok trivial

/-! ## Names, tags and directives -/

theorem faultsIn_anchorName (c : Cursor) : FaultsIn Fault.OfCharacters (anchorName c) := by
  unfold anchorName
  exact .ite (fun _ => .malformed) fun _ => .ok trivial

theorem faultsIn_percentBytes (cs : List Char) :
    FaultsIn Fault.OfCharacters (percentBytes cs) := by
  fun_induction percentBytes cs with
  | case1 => exact .malformed
  | case2 _ _ _ _ _ ih => exact .andThen ih fun _ => .ok trivial
  | case3 => exact .malformed
  | case4 => exact .ok trivial

theorem faultsIn_percentDecode (cs : List Char) :
    FaultsIn Fault.OfCharacters (percentDecode cs) := by
  unfold percentDecode
  split
  · exact .ok trivial
  · refine .andThen (faultsIn_percentBytes _) fun part => ?_
    obtain ⟨_, after⟩ := part
    dsimp only
    split
    · exact .malformed
    · exact .dite (fun _ => .andThen (faultsIn_percentDecode after) fun _ => .ok trivial)
        fun _ => .malformed
  · exact .andThen (faultsIn_percentDecode _) fun _ => .ok trivial
termination_by cs.length
decreasing_by
  · rename_i hcs hafter
    rw [hcs]
    exact Nat.lt_succ_of_le hafter
  · rename_i hcs
    rw [hcs]
    exact Nat.lt_succ_self _

theorem faultsIn_tagChars (c : Cursor) : FaultsIn Fault.OfCharacters (tagChars c) := by
  unfold tagChars
  exact .ite (fun _ => .malformed) fun _ => .andThen (faultsIn_percentDecode _) fun _ => .ok trivial

theorem faultsIn_tagHandle (c : Cursor) : FaultsIn Fault.OfCharacters (tagHandle c) := by
  unfold tagHandle
  refine .ite (fun _ => .malformed) fun _ => .ite (fun _ => .ok trivial) fun _ => ?_
  exact .ite (fun _ => .ok trivial) fun _ => .malformed

/-- A tag fails for its characters only. -/
theorem faultsIn_tagText (c : Cursor) : FaultsIn Fault.OfCharacters (tagText c) := by
  unfold tagText
  extract_lets finish goOn
  have hfinish : ∀ part, FaultsIn Fault.OfCharacters (finish part) := fun _ =>
    .ite (fun _ => .ok trivial) fun _ => .malformed
  have hgoOn : ∀ part, FaultsIn Fault.OfCharacters (goOn part) := fun _ =>
    .andThen (faultsIn_tagChars _) fun _ => .andThen (.ok trivial) hfinish
  refine .ite (fun _ => .andThen (faultsIn_tagChars _) fun _ => ?_) fun _ => ?_
  · exact .ite (fun _ => .andThen (.ok trivial) hfinish) fun _ => .andThen .malformed hfinish
  · refine .ite (fun _ => .andThen (.ok trivial) hfinish) fun _ => ?_
    refine .ite (fun _ => .andThen (faultsIn_tagHandle c) hgoOn) fun _ => ?_
    exact .andThen (.ok trivial) hgoOn

theorem faultsIn_versionNumber (c : Cursor) : FaultsIn Fault.OfCharacters (versionNumber c) := by
  unfold versionNumber
  refine .ite (fun _ => .malformed) fun _ => .ite (fun h => ?_) fun _ => .ok trivial
  exact .error (.version h)

theorem faultsIn_versionDirective (c : Cursor) :
    FaultsIn Fault.OfCharacters (versionDirective c) := by
  unfold versionDirective
  refine .andThen (faultsIn_versionNumber _) fun _ => .ite (fun _ => .malformed) fun _ => ?_
  exact .andThen (faultsIn_versionNumber _) fun _ =>
    .ite (fun _ => .ok trivial) fun _ => .malformed

theorem faultsIn_tagDirective (c : Cursor) : FaultsIn Fault.OfCharacters (tagDirective c) := by
  unfold tagDirective
  refine .andThen (faultsIn_tagHandle _) fun _ => .ite (fun _ => .malformed) fun _ => ?_
  exact .andThen (faultsIn_tagChars _) fun _ => .ite (fun _ => .ok trivial) fun _ => .malformed

/-- A directive fails for its characters only. -/
theorem faultsIn_directiveText (c : Cursor) : FaultsIn Fault.OfCharacters (directiveText c) := by
  unfold directiveText
  refine .ite (fun _ => .malformed) fun _ => ?_
  extract_lets finish
  have hfinish : ∀ part, FaultsIn Fault.OfCharacters (finish part) := fun _ =>
    .andThen (faultsIn_finishLine _) fun _ => .ok trivial
  refine .ite (fun _ => .andThen (faultsIn_versionDirective _) hfinish) fun _ => ?_
  refine .ite (fun _ => .andThen (faultsIn_tagDirective _) hfinish) fun _ => ?_
  exact .andThen (.ok trivial) hfinish

/-! ## Tokens -/

namespace Scan

/-- No fault is among the tokens of a scan: the first one ends it. -/
def IsSound (s : Scan) : Prop :=
  ∀ t ∈ s.tokens, ∀ f, t ≠ .fault f

theorem IsSound.push (h : s.IsSound) (ht : ∀ f, t ≠ .fault f) : (s.push t).IsSound := by
  intro u hu
  rcases Array.mem_push.1 hu with hmem | rfl
  · exact h u hmem
  · exact ht

theorem IsSound.take (h : s.IsSound) (n : Nat) (ht : ∀ f, t ≠ .fault f) : (s.take n t).IsSound :=
  h.push ht

theorem isSound_insert {ts : Array Token} (h : ∀ u ∈ ts, ∀ f, u ≠ .fault f) (i : Nat)
    (ht : ∀ f, t ≠ .fault f) : ∀ u ∈ ts.insertIdxIfInBounds i t, ∀ f, u ≠ .fault f := by
  intro u hu
  rw [Array.insertIdxIfInBounds] at hu
  split at hu
  · rcases Array.mem_insertIdx.1 hu with rfl | hmem
    · exact ht
    · exact h u hmem
  · exact h u hu

/-- A token that opens a collection is put before the others, and they stay. -/
theorem IsSound.openBlock (h : s.IsSound) (column i : Nat) (ht : ∀ f, t ≠ .fault f) :
    (s.openBlock column i t).IsSound := by
  unfold Scan.openBlock
  split
  · exact h
  · exact isSound_insert h i ht

theorem IsSound.closeFrom (h : s.IsSound) (limit : Nat) : (s.closeFrom limit).IsSound := by
  intro u hu
  rcases Array.mem_append.1 hu with hmem | hend
  · exact h u hmem
  · obtain ⟨_, -, rfl⟩ := List.mem_map.1 (List.mem_toArray.1 hend)
    exact fun f => Token.noConfusion

theorem IsSound.closeIndented (h : s.IsSound) : s.closeIndented.IsSound := by
  unfold Scan.closeIndented
  split
  · exact h
  · exact h.closeFrom _

theorem IsSound.skipBlanks (h : s.IsSound) : s.skipBlanks.IsSound := by
  fun_induction Scan.skipBlanks s with
  | case1 => exact h
  | case2 _ _ _ _ ih => exact ih h

def Scans (x : Except Fault Scan) : Prop :=
  Yields Fault.OfCharacters IsSound x

theorem scans_dropStale (h : s.IsSound) : Scans s.dropStale := by
  unfold dropStale
  exact .ite (fun _ => .malformed) fun _ => .ok h

theorem scans_dropCandidate (h : s.IsSound) : Scans s.dropCandidate := by
  unfold dropCandidate
  exact .ite (fun _ => .malformed) fun _ => .ok h

theorem scans_saveCandidate (h : s.IsSound) : Scans s.saveCandidate := by
  unfold saveCandidate
  exact .ite (fun _ => .bind (scans_dropCandidate h) fun _ _ hdropped => .ok hdropped)
    fun _ => .ok h

theorem scans_leaveBlocks (h : s.IsSound) : Scans s.leaveBlocks := by
  unfold leaveBlocks
  refine .bind (scans_dropCandidate ?_) fun _ _ hdropped => .ok hdropped
  split
  · exact h
  · exact h.closeFrom 0

theorem scans_marker (h : s.IsSound) (ht : ∀ f, t ≠ .fault f) : Scans (s.marker t) := by
  unfold marker
  exact .bind (scans_leaveBlocks h) fun _ _ hleft => .ok (hleft.take 3 ht)

theorem scans_directive (h : s.IsSound) : Scans s.directive := by
  unfold directive
  refine .bind (scans_leaveBlocks h) fun _ _ hleft => ?_
  exact .andThen (faultsIn_directiveText _) fun _ => .ok (hleft.push fun _ => Token.noConfusion)

theorem scans_openBracket (h : s.IsSound) (ht : ∀ f, t ≠ .fault f) :
    Scans (s.openBracket t) := by
  unfold openBracket
  exact .bind (scans_saveCandidate h) fun _ _ hsaved => .ok (hsaved.take 1 ht)

theorem scans_closeBracket (h : s.IsSound) (ht : ∀ f, t ≠ .fault f) :
    Scans (s.closeBracket t) := by
  unfold closeBracket
  exact .bind (scans_dropCandidate h) fun _ _ hdropped => .ok (hdropped.take 1 ht)

theorem scans_flowEntry (h : s.IsSound) : Scans s.flowEntry := by
  unfold flowEntry
  exact .bind (scans_dropCandidate h) fun _ _ hdropped =>
    .ok (hdropped.take 1 fun _ => Token.noConfusion)

-- Outside brackets an indicator may open a block collection first.
theorem scans_indicator (h : s.IsSound) (ht : ∀ f, t ≠ .fault f) (keyAllowed : Bool)
    {opener : Token} (hopener : ∀ f, opener ≠ .fault f) :
    Scans (do
      let dropped ← dropCandidate
        (if s.inFlow then s else s.openBlock s.cursor.column s.tokens.size opener)
      return { dropped.take 1 t with keyAllowed := keyAllowed }) := by
  refine .bind (scans_dropCandidate ?_) fun _ _ hdropped => .ok (hdropped.take 1 ht)
  split
  · exact h
  · exact h.openBlock _ _ hopener

theorem scans_blockEntry (h : s.IsSound) : Scans s.blockEntry := by
  unfold blockEntry
  exact .ite (fun _ => .malformed) fun _ =>
    scans_indicator h (fun _ => Token.noConfusion) _ fun _ => Token.noConfusion

theorem scans_explicitKey (h : s.IsSound) : Scans s.explicitKey := by
  unfold explicitKey
  exact .ite (fun _ => .malformed) fun _ =>
    scans_indicator h (fun _ => Token.noConfusion) _ fun _ => Token.noConfusion

/-- The sign of a value may turn an earlier node into a key. -/
theorem scans_value (h : s.IsSound) : Scans s.value := by
  unfold value
  split
  · next k _ =>
    have hkeyed : IsSound { s with
        candidates := s.candidates.filter (·.1 ≠ s.flowLevel)
        tokens := s.tokens.insertIdxIfInBounds k.index .key
        keyAllowed := false } := isSound_insert h k.index fun _ => Token.noConfusion
    refine .ok (IsSound.take ?_ 1 fun _ => Token.noConfusion)
    split
    · exact hkeyed
    · exact hkeyed.openBlock _ _ fun _ => Token.noConfusion
  · exact .ite (fun _ => .malformed) fun _ =>
      scans_indicator h (fun _ => Token.noConfusion) _ fun _ => Token.noConfusion

/-- A name or a quoted scalar is one token, read as a whole. -/
theorem scans_named (h : s.IsSound) {read : Cursor → Except Fault (Token × Cursor)}
    (hread : Yields Fault.OfCharacters (fun r => ∀ f, r.1 ≠ .fault f) (read s.cursor)) :
    Scans (s.named read) := by
  unfold named
  exact .bind (scans_saveCandidate h) fun _ _ hsaved =>
    .bind hread fun _ _ hr => .ok (hsaved.push hr)

theorem scans_block (h : s.IsSound) (folded : Bool) : Scans (s.block folded) := by
  unfold block
  exact .bind (scans_dropCandidate h) fun _ _ hdropped =>
    .andThen (faultsIn_blockScalar _ _ _) fun _ => .ok (hdropped.push fun _ => Token.noConfusion)

theorem scans_plain (h : s.IsSound) : Scans s.plain := by
  unfold plain
  exact .bind (scans_saveCandidate h) fun _ _ hsaved =>
    .ok (hsaved.push fun _ => Token.noConfusion)

/-- Whatever character starts a token, the scan goes on or the characters are at fault. -/
theorem scans_token (h : s.IsSound) (ch : Char) : Scans (s.token ch) := by
  unfold token
  dsimp only
  refine .ite (fun _ => scans_directive h) fun _ => ?_
  refine .ite (fun _ => scans_marker h fun _ => Token.noConfusion) fun _ => ?_
  refine .ite (fun _ => scans_marker h fun _ => Token.noConfusion) fun _ => ?_
  split
  · exact scans_openBracket h fun _ => Token.noConfusion
  · exact scans_openBracket h fun _ => Token.noConfusion
  · exact scans_closeBracket h fun _ => Token.noConfusion
  · exact scans_closeBracket h fun _ => Token.noConfusion
  · exact scans_flowEntry h
  · exact scans_named h (.andThen (faultsIn_anchorName _) fun _ => .ok fun _ => Token.noConfusion)
  · exact scans_named h (.andThen (faultsIn_anchorName _) fun _ => .ok fun _ => Token.noConfusion)
  · exact scans_named h (.andThen (faultsIn_tagText _) fun _ => .ok fun _ => Token.noConfusion)
  · exact scans_named h (.andThen (faultsIn_quotedFrom _ _) fun _ => .ok fun _ => Token.noConfusion)
  · exact scans_named h (.andThen (faultsIn_quotedFrom _ _) fun _ => .ok fun _ => Token.noConfusion)
  · refine .ite (fun _ => scans_blockEntry h) fun _ => .ite (fun _ => scans_explicitKey h)
      fun _ => .ite (fun _ => scans_value h) fun _ => .ite (fun _ => scans_block h _)
        fun _ => .ite (fun _ => scans_block h _) fun _ => ?_
    exact .ite (fun _ => scans_plain h) fun _ => .malformed

/-- One step of the scan brings tokens without faults, or ends. -/
theorem scans_next (h : s.IsSound) : Scans s.next := by
  unfold next
  refine .bind (scans_dropStale h.skipBlanks) fun _ _ hfresh => ?_
  have hhere := hfresh.closeIndented
  dsimp only
  split
  · exact scans_leaveBlocks hhere
  · exact .bind (scans_token hhere _) fun _ _ hafter => scans_dropStale hafter

theorem mem_of_mem_settled (h : t ∈ s.settled) : t ∈ s.tokens := by
  unfold settled at h
  split at h
  · exact Array.mem_toList_iff.1 h
  · exact Array.mem_toList_iff.1 (List.mem_of_mem_take h)

/-- A fault among all tokens is the one that ends them. -/
theorem ofCharacters_of_mem_finish (h : s.IsSound) (hmem : .fault f ∈ s.finish)
    (hne : f ≠ .malformed) : f.OfCharacters := by
  fun_induction finish s with
  | case1 s e he =>
    rcases List.mem_append.1 hmem with hsettled | hlast
    · exact absurd rfl (h _ (mem_of_mem_settled hsettled) f)
    · obtain ⟨rfl⟩ := List.mem_singleton.1 hlast
      exact (scans_next h).fault f he hne
  | case2 s after hafter _ ih => exact ih ((scans_next h).result after hafter) hmem
  | case3 s after hafter _ =>
    exact absurd rfl ((scans_next h).result after hafter _ (Array.mem_toList_iff.1 hmem) f)

end Scan

/-- A fault among the tokens of a stream is one of its characters. -/
theorem ofCharacters_of_mem_tokenize {text : List Char} (h : .fault f ∈ tokenize text)
    (hne : f ≠ .malformed) : f.OfCharacters := by
  unfold tokenize at h
  split at h
  · exact Scan.ofCharacters_of_mem_finish (fun _ ht => absurd ht (Array.not_mem_empty _)) h hne
  · obtain ⟨rfl⟩ := List.mem_singleton.1 h
    exact absurd rfl hne

end LetFun.Yaml
