import LetFun.Proofs.Json.Integers
import LetFun.Proofs.Json.Strings
/-!
# Reading JSON text that was written

Values are read back as they were written, in any layout and at any level (`readValue_write`), and
so are whole texts (`read_render`). The values are those for which there is room, without
floating-point numbers, whose integers can be shown, whose strings hold no surrogates and whose
objects have different keys.
-/

namespace LetFun.Json

variable {room : Nat} {cs rest after : List Char}

/-! ## Steps of the reader -/

theorem readValue_string {t : Text} (h : Returns (readString ('\x22' :: rest) rest) t after) :
    Returns (readValue room ('\x22' :: rest)) (.string t) after := by
  obtain ⟨hlt, hread⟩ := h
  rw [readValue, hread]
  exact Returns.ok _ _ _

/-- What is no string, array or object is a word or a number. -/
theorem readValue_plain (h : ∀ c ∈ cs.head?, c ∉ ['\x22', '\x7b', '[']) :
    readValue room cs = readPlain cs := by
  rw [readValue]
  · rintro tail rfl
    exact h _ rfl (by decide)
  · rintro tail rfl
    exact h _ rfl (by decide)
  · rintro tail rfl
    exact h _ rfl (by decide)

theorem readValue_array_nil (h : skip rest = ']' :: after) :
    Returns (readValue (room + 1) ('[' :: rest)) (.array []) after := by
  rw [readValue]
  simp only [enter, bind, Except.bind]
  split
  · next heq =>
    cases h.symm.trans heq
    exact Returns.ok _ _ _
  · next hne => exact absurd h (hne _)

/-- A bracket is followed by items. -/
theorem readValue_array {items : List Json} (hne : (skip rest).head? ≠ some ']')
    (h : Returns (readItems room (skip rest)) items after) :
    Returns (readValue (room + 1) ('[' :: rest)) (.array items) after := by
  obtain ⟨hlt, hread⟩ := h
  rw [readValue]
  simp only [enter, bind, Except.bind]
  split
  · next heq => exact absurd (congrArg List.head? heq) hne
  · rw [hread]
    exact Returns.ok _ _ _

/-- The last item is followed by the closing bracket. -/
theorem readItems_last {item : Json} (hitem : Returns (readValue room cs) item rest)
    (h : skip rest = ']' :: after) : Returns (readItems room cs) [item] after := by
  obtain ⟨hlt, hread⟩ := hitem
  rw [readItems, hread]
  simp only [bind, Except.bind]
  split
  · next heq =>
    cases h.symm.trans heq
    exact Returns.ok _ _ _
  · next heq => cases h.symm.trans heq
  · next hne _ => exact absurd h (hne _)

/-- Any other item is followed by a comma. -/
theorem readItems_more {item : Json} {items : List Json} {later : List Char}
    (hitem : Returns (readValue room cs) item rest) (h : skip rest = ',' :: later)
    (hitems : Returns (readItems room (skip later)) items after) :
    Returns (readItems room cs) (item :: items) after := by
  obtain ⟨hlt, hread⟩ := hitem
  obtain ⟨hlt', hread'⟩ := hitems
  rw [readItems, hread]
  simp only [bind, Except.bind]
  split
  · next heq => cases h.symm.trans heq
  · next heq =>
    cases h.symm.trans heq
    rw [hread']
    exact Returns.ok _ _ _
  · next hne => exact absurd h (hne _)

theorem readValue_object_nil (h : skip rest = '\x7d' :: after) :
    Returns (readValue (room + 1) ('\x7b' :: rest)) (.object []) after := by
  rw [readValue]
  simp only [enter, bind, Except.bind]
  split
  · next heq =>
    cases h.symm.trans heq
    exact Returns.ok _ _ _
  · next hne => exact absurd h (hne _)

/-- A brace is followed by members. -/
theorem readValue_object {members : List (Text × Json)} (hne : (skip rest).head? ≠ some '\x7d')
    (h : Returns (readMembers room (skip rest)) members after) :
    Returns (readValue (room + 1) ('\x7b' :: rest)) (.object (ofPairs members)) after := by
  obtain ⟨hlt, hread⟩ := h
  rw [readValue]
  simp only [enter, bind, Except.bind]
  split
  · next heq => exact absurd (congrArg List.head? heq) hne
  · rw [hread]
    exact Returns.ok _ _ _

/-- A member is a key, a colon and a value, perhaps with space between them. -/
theorem readMember_ok {key : Text} {item : Json} {later : List Char}
    (hkey : Returns (readKey cs) key rest) (h : skip rest = ':' :: later)
    (hitem : Returns (readValue room (skip later)) item after) :
    Returns (readMember room cs) (key, item) after := by
  obtain ⟨hlt, hread⟩ := hkey
  obtain ⟨hlt', hread'⟩ := hitem
  rw [readMember, hread]
  simp only [bind, Except.bind]
  split
  · next heq =>
    cases h.symm.trans heq
    rw [hread']
    exact Returns.ok _ _ _
  · next hne => exact absurd h (hne _)

theorem readMembers_last {member : Text × Json} (hmember : Returns (readMember room cs) member rest)
    (h : skip rest = '\x7d' :: after) : Returns (readMembers room cs) [member] after := by
  obtain ⟨hlt, hread⟩ := hmember
  rw [readMembers, hread]
  simp only [bind, Except.bind]
  split
  · next heq =>
    cases h.symm.trans heq
    exact Returns.ok _ _ _
  · next heq => cases h.symm.trans heq
  · next hne _ => exact absurd h (hne _)

theorem readMembers_more {member : Text × Json} {members : List (Text × Json)} {later : List Char}
    (hmember : Returns (readMember room cs) member rest) (h : skip rest = ',' :: later)
    (hmembers : Returns (readMembers room (skip later)) members after) :
    Returns (readMembers room cs) (member :: members) after := by
  obtain ⟨hlt, hread⟩ := hmember
  obtain ⟨hlt', hread'⟩ := hmembers
  rw [readMembers, hread]
  simp only [bind, Except.bind]
  split
  · next heq => cases h.symm.trans heq
  · next heq =>
    cases h.symm.trans heq
    rw [hread']
    exact Returns.ok _ _ _
  · next hne => exact absurd h (hne _)

/-! ## Space -/

theorem skip_cons {c : Char} (hc : isSpace c = false) : skip (c :: cs) = c :: cs :=
  List.dropWhile_cons_of_neg (by simp [hc])

-- The space before an item has no meaning.
theorem skip_lineBreak (layout : Layout) (depth : Nat) (cs : List Char) :
    skip (layout.lineBreak depth ++ cs) = skip cs := by
  apply List.dropWhile_append_of_pos
  cases layout with
  | compact => exact fun _ h => (nomatch h)
  | indented width =>
    intro c hc
    rcases List.mem_cons.1 hc with rfl | hc
    · rfl
    · rw [List.eq_of_mem_replicate hc]
      rfl

theorem stopsNumber_cons {c : Char} (hc : c.isDigit = false ∧ c ∉ ['.', 'e', 'E']) :
    StopsNumber (c :: cs) := by
  rintro d hd
  cases hd
  exact hc

theorem stopsNumber_lineBreak (layout : Layout) (depth : Nat) (hcs : StopsNumber cs) :
    StopsNumber (layout.lineBreak depth ++ cs) := by
  cases layout with
  | compact => exact hcs
  | indented width => exact stopsNumber_cons (by decide)

/-! ## Objects -/

/-- A new key goes to the end. -/
theorem insert_of_notMem {key : Text} {members : List (Text × Json)} (value : Json)
    (h : key ∉ members.map Prod.fst) : insert key value members = members ++ [(key, value)] := by
  induction members with
  | nil => rfl
  | cons m members ih =>
    rw [List.map_cons, List.mem_cons, not_or] at h
    rw [insert, if_neg (Ne.symm h.1), ih h.2]
    rfl

-- Pairs with different keys are the members themselves.
theorem ofPairs_eq_self {members : List (Text × Json)} (h : (members.map Prod.fst).Nodup) :
    ofPairs members = members := by
  have hfoldl : ∀ before, ((before ++ members).map Prod.fst).Nodup →
      members.foldl (fun members m => insert m.1 m.2 members) before = before ++ members := by
    clear h
    induction members with
    | nil => exact fun before _ => (List.append_nil before).symm
    | cons m members ih =>
      intro before hnodup
      have hnew : m.1 ∉ before.map Prod.fst := by
        rw [List.map_append, List.map_cons] at hnodup
        exact fun hmem => (List.nodup_append.1 hnodup).2.2 _ hmem _ List.mem_cons_self rfl
      rw [List.append_cons] at hnodup ⊢
      rw [List.foldl_cons, insert_of_notMem m.2 hnew]
      exact ih _ hnodup
  exact hfoldl [] h

/-! ## The round trip -/

/-- A value that is read back from its text if there is room for `room` arrays and objects inside
one another. -/
inductive Readable : (room : Nat) → Json → Prop where
  | null {room : Nat} : Readable room .null
  | bool {room : Nat} (b : Bool) : Readable room (.bool b)
  | integer {room : Nat} {i : Int} (hi : isShowable i = true) : Readable room (.integer i)
  | string {room : Nat} (s : String) : Readable room (.ofString s)
  | array {room : Nat} {items : List Json} (hitems : ∀ v ∈ items, Readable room v) :
    Readable (room + 1) (.array items)
  | object {room : Nat} {members : List (Text × Json)} (hkeys : (members.map Prod.fst).Nodup)
      (hnames : ∀ m ∈ members, ∃ s, m.1 = Text.ofString s)
      (hvalues : ∀ m ∈ members, Readable room m.2) :
    Readable (room + 1) (.object members)

/-- Items can be written if each of them can. -/
theorem checkItems_eq_ok_iff {items : List Json} :
    checkItems room items = .ok () ↔ ∀ v ∈ items, v.check room = .ok () := by
  induction items with
  | nil => exact ⟨fun _ v hv => (nomatch hv), fun _ => rfl⟩
  | cons item items ih =>
    rw [checkItems, Except.bind_unit_eq_ok_iff, List.forall_mem_cons, ih]

theorem checkMembers_eq_ok_iff {members : List (Text × Json)} :
    checkMembers room members = .ok () ↔ ∀ m ∈ members, m.2.check room = .ok () := by
  induction members with
  | nil => exact ⟨fun _ m hm => (nomatch hm), fun _ => rfl⟩
  | cons m members ih =>
    rw [checkMembers, Except.bind_unit_eq_ok_iff, List.forall_mem_cons, ih]

/-- A value that is read back can be written in the same room. -/
theorem Readable.check_eq {v : Json} (h : Readable room v) : v.check room = .ok () := by
  induction h with
  | null => rfl
  | bool b => rfl
  | integer hi => rw [check, if_pos hi]
  | string s => rfl
  | array _ ih => exact checkItems_eq_ok_iff.2 ih
  | object _ _ _ ih => exact checkMembers_eq_ok_iff.2 ih

/-- What can be written is read back in the same room, if it is in any. -/
theorem Readable.of_check {v : Json} {room' : Nat} (h : Readable room' v)
    (hcheck : v.check room = .ok ()) : Readable room v := by
  induction h generalizing room with
  | null => exact .null
  | bool b => exact .bool b
  | integer hi => exact .integer hi
  | string s => exact .string s
  | array _ ih =>
    cases room with
    | zero => cases hcheck
    | succ room => exact .array fun v hv => ih v hv (checkItems_eq_ok_iff.1 hcheck v hv)
  | object hkeys hnames _ ih =>
    cases room with
    | zero => cases hcheck
    | succ room =>
      exact .object hkeys hnames fun m hm => ih m hm (checkMembers_eq_ok_iff.1 hcheck m hm)

/-- More room does no harm. -/
theorem Readable.mono {v : Json} {room' : Nat} (h : Readable room v) (hle : room ≤ room') :
    Readable room' v := by
  induction h generalizing room' with
  | null => exact .null
  | bool b => exact .bool b
  | integer hi => exact .integer hi
  | string s => exact .string s
  | array _ ih =>
    obtain ⟨room', rfl⟩ := Nat.exists_eq_add_of_le' (Nat.one_le_of_lt hle)
    exact .array fun v hv => ih v hv (Nat.le_of_succ_le_succ hle)
  | object hkeys hnames _ ih =>
    obtain ⟨room', rfl⟩ := Nat.exists_eq_add_of_le' (Nat.one_le_of_lt hle)
    exact .object hkeys hnames fun m hm => ih m hm (Nat.le_of_succ_le_succ hle)

-- The first character of a value is no space, and does not close an array.
theorem exists_write_eq_cons {v : Json} (hv : Readable room v) (layout : Layout) (depth : Nat)
    (rest : List Char) :
    ∃ c tail, write layout depth v rest = c :: tail ∧ isSpace c = false ∧
      c ∉ [']', '\ufeff'] := by
  cases hv with
  | null => exact ⟨'n', _, rfl, by decide⟩
  | bool b =>
    cases b with
    | true => exact ⟨'t', _, rfl, by decide⟩
    | false => exact ⟨'f', _, rfl, by decide⟩
  | @integer _ i _ =>
    obtain ⟨c, cs, hcs, hc⟩ := exists_toString_eq_cons i
    rw [write, hcs]
    rcases hc with rfl | hc
    · exact ⟨'-', _, rfl, by decide⟩
    · exact ⟨c, _, rfl, by simp [isSpace, ne_of_isDigit _ hc], by simp [ne_of_isDigit _ hc]⟩
  | string s => exact ⟨'\x22', _, rfl, by decide⟩
  | @array _ items _ =>
    cases items with
    | nil => exact ⟨'[', _, rfl, by decide⟩
    | cons item items => exact ⟨'[', _, rfl, by decide⟩
  | @object _ members _ _ _ =>
    cases members with
    | nil => exact ⟨'\x7b', _, rfl, by decide⟩
    | cons m members => exact ⟨'\x7b', _, rfl, by decide⟩

/-- The text of a value does not begin with space. -/
theorem skip_write {v : Json} (hv : Readable room v) (layout : Layout) (depth : Nat)
    (rest : List Char) : skip (write layout depth v rest) = write layout depth v rest := by
  obtain ⟨c, tail, hwrite, hspace, -⟩ := exists_write_eq_cons hv layout depth rest
  rw [hwrite]
  exact skip_cons hspace

/-- Reading undoes writing for a value at a level of nesting. -/
def ReadsBack (layout : Layout) (room depth : Nat) (v : Json) : Prop :=
  ∀ rest, StopsNumber rest → Returns (readValue room (write layout depth v rest)) v rest

/-- Items are read back from their text, if each of them is. -/
theorem readItems_writeItems {layout : Layout} {depth : Nat} {close : List Char} {item : Json}
    {items : List Json} (hitems : ∀ v ∈ item :: items, Readable room v)
    (hread : ∀ v ∈ item :: items, ReadsBack layout room depth v) (hstops : StopsNumber close)
    (hclose : skip close = ']' :: rest) :
    Returns (readItems room (write layout depth item (writeItems layout depth items close)))
      (item :: items) rest := by
  induction items generalizing item with
  | nil =>
    apply readItems_last _ hclose
    exact hread item List.mem_cons_self close hstops
  | cons next items ih =>
    rw [List.forall_mem_cons] at hitems hread
    rw [writeItems]
    apply readItems_more (hread.1 _ (stopsNumber_cons (by decide))) (skip_cons (by decide))
    rw [skip_lineBreak, skip_write (hitems.2 next List.mem_cons_self)]
    exact ih hitems.2 hread.2

theorem readMember_write {layout : Layout} {depth : Nat} {m : Text × Json} {s : String}
    (hname : m.1 = Text.ofString s) (hvalue : Readable room m.2)
    (hread : ReadsBack layout room depth m.2) (hrest : StopsNumber rest) :
    Returns (readMember room (writeString m.1 (layout.colon ++ write layout depth m.2 rest)))
      m rest := by
  obtain ⟨key, value⟩ := m
  obtain rfl : key = Text.ofString s := hname
  have hcolon : ∃ later, skip (layout.colon ++ write layout depth value rest) = ':' :: later ∧
      skip later = write layout depth value rest := by
    cases layout with
    | compact => exact ⟨_, skip_cons (by decide), skip_write hvalue _ _ _⟩
    | indented width =>
      exact ⟨_, skip_cons (by decide), (skip_write hvalue (.indented width) depth rest)⟩
  obtain ⟨later, hlater, hskip⟩ := hcolon
  apply readMember_ok (readKey_writeString s) hlater
  rw [hskip]
  exact hread rest hrest

/-- Members are read back from their text, if their values are. -/
theorem readMembers_writeMembers {layout : Layout} {depth : Nat} {close : List Char}
    {m : Text × Json} {members : List (Text × Json)}
    (hnames : ∀ m' ∈ m :: members, ∃ s, m'.1 = Text.ofString s)
    (hvalues : ∀ m' ∈ m :: members, Readable room m'.2)
    (hread : ∀ m' ∈ m :: members, ReadsBack layout room depth m'.2) (hstops : StopsNumber close)
    (hclose : skip close = '\x7d' :: rest) :
    Returns (readMembers room (writeString m.1 (layout.colon ++
      write layout depth m.2 (writeMembers layout depth members close)))) (m :: members) rest := by
  induction members generalizing m with
  | nil =>
    obtain ⟨s, hs⟩ := hnames m List.mem_cons_self
    apply readMembers_last _ hclose
    exact readMember_write hs (hvalues m List.mem_cons_self) (hread m List.mem_cons_self) hstops
  | cons next members ih =>
    rw [List.forall_mem_cons] at hnames hvalues hread
    obtain ⟨s, hs⟩ := hnames.1
    rw [writeMembers]
    apply readMembers_more
      (readMember_write hs hvalues.1 hread.1 (stopsNumber_cons (by decide))) (skip_cons (by decide))
    rw [skip_lineBreak]
    exact ih hnames.2 hvalues.2 hread.2

variable {layout : Layout} {depth : Nat}

/-- An integer with few enough digits is read back. -/
theorem readsBack_integer {i : Int} (hi : isShowable i = true) :
    ReadsBack layout room depth (.integer i) := by
  intro rest hrest
  rw [write, readValue_plain]
  · exact readPlain_integer hi hrest
  · obtain ⟨c, cs, hcs, hc⟩ := exists_toString_eq_cons i
    rw [hcs]
    rintro d hd
    cases hd
    rcases hc with rfl | hc
    · decide
    · simp [ne_of_isDigit _ hc]

-- The items are on lines of their own one level further in, and the bracket is back on the level of
-- the array.
theorem readsBack_array {items : List Json} (hitems : ∀ v ∈ items, Readable room v)
    (hread : ∀ v ∈ items, ReadsBack layout room (depth + 1) v) :
    ReadsBack layout (room + 1) depth (.array items) := by
  intro rest _
  cases items with
  | nil => exact readValue_array_nil (skip_cons (by decide))
  | cons item items =>
    have hitem := hitems item List.mem_cons_self
    have hclose : skip (layout.lineBreak depth ++ ']' :: rest) = ']' :: rest := by
      rw [skip_lineBreak]
      exact skip_cons (by decide)
    have hskip : ∀ after, skip (layout.lineBreak (depth + 1) ++
        write layout (depth + 1) item after) = write layout (depth + 1) item after := by
      intro after
      rw [skip_lineBreak]
      exact skip_write hitem layout (depth + 1) after
    rw [write]
    apply readValue_array
    · rw [hskip]
      -- No value starts with a closing bracket, so the array is not taken for an empty one.
      obtain ⟨c, tail, hwrite, -, hc⟩ := exists_write_eq_cons hitem layout (depth + 1)
        (writeItems layout (depth + 1) items (layout.lineBreak depth ++ ']' :: rest))
      rw [hwrite]
      rintro h
      cases h
      exact hc (by decide)
    · rw [hskip]
      exact readItems_writeItems hitems hread
        (stopsNumber_lineBreak layout depth (stopsNumber_cons (by decide))) hclose

-- The reader inserts the members one by one, which changes nothing as their keys differ.
theorem readsBack_object {members : List (Text × Json)} (hkeys : (members.map Prod.fst).Nodup)
    (hnames : ∀ m ∈ members, ∃ s, m.1 = Text.ofString s)
    (hvalues : ∀ m ∈ members, Readable room m.2)
    (hread : ∀ m ∈ members, ReadsBack layout room (depth + 1) m.2) :
    ReadsBack layout (room + 1) depth (.object members) := by
  intro rest _
  cases members with
  | nil => exact readValue_object_nil (skip_cons (by decide))
  | cons m members =>
    have hclose : skip (layout.lineBreak depth ++ '\x7d' :: rest) = '\x7d' :: rest := by
      rw [skip_lineBreak]
      exact skip_cons (by decide)
    have hskip : ∀ after, skip (layout.lineBreak (depth + 1) ++ writeString m.1 after) =
        writeString m.1 after := by
      intro after
      rw [skip_lineBreak]
      exact skip_cons (by decide)
    have hmembers := readMembers_writeMembers hnames hvalues hread
      (stopsNumber_lineBreak layout depth (stopsNumber_cons (by decide))) hclose
    rw [write, ← ofPairs_eq_self hkeys]
    apply readValue_object
    · rw [hskip, writeString]
      simp
    · rw [hskip]
      exact hmembers

-- A value is read back, and the text after it is left.
theorem readValue_write {v : Json} (hv : Readable room v) (layout : Layout) (depth : Nat) :
    ReadsBack layout room depth v := by
  induction hv generalizing depth with
  | null =>
    intro rest _
    rw [readValue_plain (by rintro c hc; cases hc; decide)]
    exact readPlain_word rfl
  | bool b =>
    intro rest _
    cases b with
    | true =>
      rw [readValue_plain (by rintro c hc; cases hc; decide)]
      exact readPlain_word rfl
    | false =>
      rw [readValue_plain (by rintro c hc; cases hc; decide)]
      exact readPlain_word rfl
  | integer hi => exact readsBack_integer hi
  | string s =>
    intro rest _
    exact readValue_string (readString_flatMap s)
  | array hitems ih => exact readsBack_array hitems fun v hv => ih v hv (depth + 1)
  | object hkeys hnames hvalues ih =>
    exact readsBack_object hkeys hnames hvalues fun m hm => ih m hm (depth + 1)

/-- A whole text is read back. -/
theorem read_render {v : Json} (hv : Readable room v) (layout : Layout) :
    read room (render layout v).toList = .ok v := by
  obtain ⟨c, tail, hwrite, hspace, hmark⟩ := exists_write_eq_cons hv layout 0 []
  obtain ⟨hlt, hread⟩ := readValue_write hv layout 0 [] (fun _ h => (nomatch h))
  rw [render, String.toList_ofList, read, if_neg, skip_write hv, hread]
  · rfl
  · rw [hwrite]
    rintro h
    cases h
    exact hmark (by decide)

end LetFun.Json
