import LetFun.Proofs.Command.Parse
import LetFun.Proofs.Spans
import LetFun.Proofs.Tokenization
/-!
# Offsets in files

The offsets that commands give out are those in the text that a file is read as. In the text of the
file itself they count the two characters that may end a line as one (`Span.Finds`), so that they
are too small behind a line that ends so, and right in a file without such lines (`offsets_of_run`).
-/

namespace LetFun

/-- A word stands where a span says, counted with the two characters of a line end as one. -/
def Span.Finds (s : Span) (word file : String) : Prop :=
  ∃ left right, file.toList = left ++ (word.toList ++ right) ∧
    s.start = (Utf8.unifyLineEnds left).length ∧ s.stop = s.start + word.length

variable {s : Span} {word file source : String} {strict : Bool} {k : Token}
  {left text right : List Char}

/-- Where no line ends with two characters, the word stands at the span. -/
theorem Span.Finds.slice_eq (h : s.Finds word file) (hpair : ¬ ['\r', '\n'] <:+: file.toList) :
    s.slice file = word := by
  obtain ⟨left, right, hfile, hstart, hstop⟩ := h
  have hleft : ¬ ['\r', '\n'] <:+: left := by
    intro hin
    apply hpair
    rw [hfile]
    exact hin.trans (List.prefix_append left _).isInfix
  rw [Utf8.length_unifyLineEnds hleft] at hstart
  rw [Span.slice, hstop, hstart, ← Int.natCast_add, Int.toNat_natCast, Int.toNat_natCast, hfile,
    List.extract_eq_take_drop, List.drop_left, Nat.add_sub_cancel_left, ← String.length_toList,
    List.take_left, String.ofList_toList]

/-- No line ends in what a token is written as. -/
theorem TokenType.notMem_of_writes {type : TokenType} {w : List Char} (h : type.Writes w) :
    '\n' ∉ w := by
  cases hword : type.isWord with
  | true =>
    intro hmem
    exact absurd ((letters_of_writes hword h).2 _ hmem) (by decide)
  | false =>
    obtain ⟨c, rfl, hc⟩ := symbol_of_writes hword h
    intro hmem
    rw [← List.mem_singleton.1 hmem] at hc
    cases hc

/-- The text of a single token is found in the file from which the source was read. -/
theorem Cut.finds (h : Cut strict [k] source.toList left text right)
    (hfile : Utf8.unifyLineEnds file.toList = source.toList) :
    ∃ word, k.value = some word ∧ k.span.Finds word file := by
  have hw := h.writtenAs
  refine ⟨String.ofList text, hw.value, ?_⟩
  rw [h.source] at hfile
  obtain ⟨l, rest, hl, hleft, hrest⟩ := Utf8.unifyLineEnds_eq_append hfile
  obtain ⟨m, r, rfl, htext, -⟩ := Utf8.unifyLineEnds_eq_append hrest
  have hm : m = text := by
    rw [← htext, Utf8.eq_self_of_notMem]
    rw [htext]
    exact TokenType.notMem_of_writes hw.writes
  refine ⟨l, r, ?_, ?_, ?_⟩
  · rw [hl, hm, String.toList_ofList]
  · rw [hleft]
    exact hw.start
  · rw [String.length_ofList]
    show k.stop = k.start + text.length
    rw [hw.stop, hw.start]

/-- The tokens of a file's text, and the identifiers of its program, stand in the file where their
spans say. -/
theorem Laid.finds {ts : List Token} (h : Laid strict ts source)
    (hfile : Utf8.unifyLineEnds file.toList = source.toList) :
    ∀ k ∈ ts, ∃ word, k.value = some word ∧ k.span.Finds word file := by
  intro k hk
  obtain ⟨left, text, right, hcut⟩ :=
    h.exists_cut ((List.singleton_infix_iff k ts).2 hk) (List.cons_ne_nil k [])
  exact hcut.finds hfile

/-- Every identifier of a program is found where its span says. -/
theorem finds_of_parseSource [CallStack] {p : Program} (h : parseSource source strict = .ok p)
    (hfile : Utf8.unifyLineEnds file.toList = source.toList) {i : Identifier}
    (hi : .identifier i ∈ (Node.program p).walk) : i.span.Finds i.name file := by
  obtain ⟨ts, hlaid, hspelled, -⟩ := parseSource_eq_ok_iff.1 h
  obtain ⟨q, left, text, right, hcut, hpart, -⟩ :=
    (Node.SpelledBy.program hspelled).exists_cut hlaid hi (by simp)
  cases hpart with
  | @identifier _ k hk =>
    obtain ⟨word, hvalue, hfinds⟩ := hcut.finds hfile
    have hname : i.name = word := Option.some.inj (hk.value.symm.trans hvalue)
    have hspan : i.span = k.span := Span.Bounds.unique hk.span ⟨rfl, rfl⟩
    rw [hname, hspan]
    exact hfinds

namespace Command

open FileAccess

variable {t t' : FileTree} {path : Path} {o : Options} {arguments : List String} {name : String}
  {c : Command} {outcome : Outcome} {config : Config}

/-- The command `tokens` prints the tokens of the source, a line for each. -/
theorem decides_tokens [CallStack] (t : FileTree) (path : Path) (o : Options) :
    Decides (execute .tokens path o) t fun outcome => ∃ source config tokens,
      Reads t path o source config ∧ tokenize source (o.strict || config.strict) = .ok tokens ∧
      outcome = .succeed (String.join (tokens.map tokenLine)) := by
  apply ((decides_loadSource t path o).bind (Q := fun r outcome => ∃ tokens,
    tokenize r.1 r.2.strict = .ok tokens ∧
      outcome = .succeed (String.join (tokens.map tokenLine))) ?_).congr
  · intro outcome
    constructor
    · rintro ⟨⟨source, _⟩, ⟨config, hreads, rfl⟩, tokens, htokens, houtcome⟩
      exact ⟨source, config, tokens, hreads, htokens, houtcome⟩
    · rintro ⟨source, config, tokens, hreads, htokens, houtcome⟩
      exact ⟨(source, withStrict o config), ⟨config, hreads, rfl⟩, tokens, htokens, houtcome⟩
  · rintro ⟨source, config⟩ -
    have hscan :
        Settles (tokenize source config.strict = .ok ·) (scanSource source config.strict) :=
      .of_mapError (fun _ => .refuse _) _
    exact .mk_pure (hscan.bind fun tokens _ => .ok fun _ => Iff.rfl)

/-- A source is the text of a file with its line ends unified. -/
theorem Reads.exists_file [CallStack] (h : Reads t path o source config) :
    ∃ bytes file, t.readBytes path = .ok bytes ∧ Utf8.decode bytes = .ok file ∧
      Utf8.unifyLineEnds file.toList = source.toList := by
  obtain ⟨bytes, hbytes, hsource⟩ := h.source
  obtain ⟨file, hfile, hlines⟩ := Utf8.decodeLines_eq_ok_iff.1 hsource
  exact ⟨bytes, file, hbytes, hfile, hlines⟩

/-- A word is shown at its place in a file. The place is a span of the file if no line ends with two
characters; in general, they count as one. -/
structure Shows (file : String) (s : Span) (word : String) : Prop where
  finds : s.Finds word file
  slice : ¬ ['\r', '\n'] <:+: file.toList → s.slice file = word

/-- A word that is found is shown, exactly if no line of the file ends with two characters. -/
theorem Shows.of_finds (h : s.Finds word file) : Shows file s word :=
  ⟨h, h.slice_eq⟩

/-- The tokens that are printed, and the identifiers of the program whose artifact is given out, are
shown at their places in the file, whose bytes are text. -/
theorem run_shows [CallStack] (hrequest : request arguments = .ok (.run c name o))
    (hrun : runIn arguments t = (outcome, t')) (hexit : outcome.ending = .exit 0) :
    ∃ bytes file, t.readBytes (Path.ofString name) = .ok bytes ∧ Utf8.decode bytes = .ok file ∧
      (c = .tokens → ∃ tokens : List Token, outcome.output = String.join (tokens.map tokenLine) ∧
        ∀ k ∈ tokens, ∃ word, k.value = some word ∧ Shows file k.span word) ∧
      (c = .parse → ∃ config p text, HasText o config p text ∧ Emits t o p text outcome t' ∧
        ∀ i, .identifier i ∈ (Node.program p).walk → Shows file i.span i.name) := by
  rw [runIn_eq hrequest] at hrun
  -- What is printed has been found in the source, so it is shown in the file.
  cases c with
  | tokens =>
    obtain ⟨⟨source, config, tokens, hreads, htokens, rfl⟩, -⟩ :=
      (decides_tokens t (Path.ofString name) o).ends.of_exit_zero hrun hexit
    obtain ⟨bytes, file, hbytes, hfile, hlines⟩ := hreads.exists_file
    refine ⟨bytes, file, hbytes, hfile, fun _ => ⟨tokens, rfl, fun k hk => ?_⟩, nofun⟩
    obtain ⟨word, hvalue, hfinds⟩ := (tokenize_eq_ok_iff.1 htokens).finds hlines k hk
    exact ⟨word, hvalue, .of_finds hfinds⟩
  | parse =>
    obtain ⟨source, config, p, text, htranslates, hemits⟩ :=
      (ends_parse t (Path.ofString name) o).of_exit_zero hrun hexit
    obtain ⟨bytes, file, hbytes, hfile, hlines⟩ := htranslates.reads.exists_file
    refine ⟨bytes, file, hbytes, hfile, nofun, fun _ =>
      ⟨config, p, text, htranslates.text, hemits, fun i hi => ?_⟩⟩
    exact .of_finds (finds_of_parseSource htranslates.program hlines hi)

theorem sourceTree_shows :
    request sourceArguments =
        .ok (.run .parse "a.let" { indent := some 0, output := some "out/b" }) ∧
      ∃ outcome tree, runIn sourceArguments sourceTree = (outcome, tree) ∧
        outcome.ending = .exit 0 ∧ ∃ bytes file,
          sourceTree.readBytes (Path.ofString "a.let") = .ok bytes ∧
          Utf8.decode bytes = .ok file ∧ ∃ config p text,
            HasText { indent := some 0, output := some "out/b" } config p text ∧
            Emits sourceTree { indent := some 0, output := some "out/b" } p text outcome tree ∧
            ∀ i, .identifier i ∈ (Node.program p).walk → Shows file i.span i.name := by
  have hrequest : request sourceArguments =
      .ok (.run .parse "a.let" { indent := some 0, output := some "out/b" }) := by rfl
  have hexit : (runIn sourceArguments sourceTree).1.ending = .exit 0 := by decide +kernel
  rcases hrun : runIn sourceArguments sourceTree with ⟨outcome, tree⟩
  rw [hrun] at hexit
  obtain ⟨bytes, file, hbytes, hfile, -, hparse⟩ := run_shows hrequest hrun hexit
  exact ⟨hrequest, outcome, tree, rfl, hexit, bytes, file, hbytes, hfile, hparse rfl⟩

def brokenLineTree : FileTree :=
  ⟨[(["work"], .directory), (["work", "a.let"], .file [0x0d, 0x0a, 0x6c, 0x65, 0x74])], ["work"]⟩

/-- Behind a line that ends with two characters a token is not shown at the span it has in
the file. -/
theorem brokenLineTree_not_slice :
    Utf8.decode [0x0d, 0x0a, 0x6c, 0x65, 0x74] = .ok "\r\nlet" ∧
      (runIn ["tokens", "a.let"] brokenLineTree).1 =
        .succeed (tokenLine ⟨.letWord, some "let", 1, 4⟩) ∧
      Span.slice ⟨1, 4⟩ "\r\nlet" ≠ "let" := by
  refine ⟨?_, ?_, ?_⟩
  · rfl
  · decide +kernel
  · decide +kernel

end Command

end LetFun
