import LetFun.CallStack
import LetFun.Parsed
import LetFun.Yaml.Tag
import LetFun.Yaml.Token
/-!
# Node graphs

A document is a graph of tagged nodes, since an alias is its anchored node again, even inside it.
Nodes are numbered in the order in which they start, and collections name their parts by number.
-/

namespace LetFun.Yaml

/-- What a node holds: text, or the numbers of other nodes. -/
inductive Content where
  | scalar (text : Text)
  | sequence (items : List Nat)
  | mapping (entries : List (Nat × Nat))
deriving DecidableEq, Repr

structure Node where
  tag : Tag
  content : Content
deriving DecidableEq, Repr

structure Graph where
  nodes : Array Node
  anchors : List (String × Nat)

namespace Graph

def empty : Graph :=
  ⟨#[], []⟩

/-- The graph with one more node and its number. No two nodes have the same anchor. -/
def add (g : Graph) (anchor : Option String) (n : Node) : Except Fault (Nat × Graph) :=
  let i := g.nodes.size
  match anchor with
  | none => .ok (i, { g with nodes := g.nodes.push n })
  | some name =>
    if (g.anchors.lookup name).isSome then .error .malformed
    else .ok (i, ⟨g.nodes.push n, (name, i) :: g.anchors⟩)

def setContent (g : Graph) (i : Nat) (content : Content) : Graph :=
  { g with nodes := g.nodes.modify i fun n => { n with content := content } }

def addEmpty (g : Graph) : Nat × Graph :=
  (g.nodes.size, { g with nodes := g.nodes.push ⟨Tag.implied [], .scalar []⟩ })

end Graph

/-! ## Nodes from tokens -/

/-- Where a node stands, which decides the collections that it can be. -/
inductive Context where
  | flow
  | block
  | blockEntryValue
deriving DecidableEq, Repr

structure Properties where
  anchor : Option String
  tag : Option TagText

def misplaced : List Token → Fault
  | .fault f :: _ => f
  | _ => .malformed

def checkNext : List Token → Except Fault Unit
  | .fault f :: _ => .error f
  | _ => .ok ()

def readProperties (ts : List Token) : Except Fault (Parsed Token Properties (ts.length + 1)) :=
  match ts with
  | .anchor a :: .tag t :: rest =>
    .ok ⟨⟨some a, some t⟩, rest, by simp only [List.length_cons]; omega⟩
  | .tag t :: .anchor a :: rest =>
    .ok ⟨⟨some a, some t⟩, rest, by simp only [List.length_cons]; omega⟩
  | .anchor a :: rest => do
    checkNext rest
    return ⟨⟨some a, none⟩, rest, by simp only [List.length_cons]; omega⟩
  | .tag t :: rest => do
    checkNext rest
    return ⟨⟨none, some t⟩, rest, by simp only [List.length_cons]; omega⟩
  | ts => do
    checkNext ts
    return ⟨⟨none, none⟩, ts, Nat.lt_succ_self _⟩

def tagName (handles : List (String × String)) (t : TagText) : Except Fault String :=
  match t.handle with
  | none => .ok t.suffix
  | some handle =>
    match handles.lookup handle with
    | some expansion => .ok (expansion ++ t.suffix)
    | none => .error .malformed

def tagOr (name : Option String) (default : Tag) : Tag :=
  match name with
  | none => default
  | some n => if n = "!" then default else Tag.ofName n

/-- The tag of a scalar: that of its text if it is plain and has none, or if its tag is `!`. -/
def scalarTag (name : Option String) (text : Text) (plain : Bool) : Tag :=
  match name with
  | none => if plain then Tag.implied text else .str
  | some n => if n = "!" then Tag.implied text else Tag.ofName n

def nextIs (stops ts : List Token) : Bool :=
  ts.head?.any (stops.contains ·)

def enter : Nat → Except Fault Nat
  | 0 => .error .tooDeep
  | room + 1 => .ok room

abbrev Built (α : Type) (bound : Nat) := Except Fault (Parsed Token (α × Graph) bound)

def built {α β : Type} {m n : Nat} (f : α → Graph → β × Graph) (p : Parsed Token (α × Graph) m)
    (h : m ≤ n) : Built β n :=
  .ok ((p.map fun (a, g) => f a g).widen h)

/-- Reads the comma before an item in brackets, unless the item is the first or the brackets end. -/
def readSeparator (isFirst : Bool) (close : Token) (ts : List Token) :
    Except Fault (Parsed Token Unit (ts.length + 1)) :=
  if isFirst || ts.head? = some close then .ok ⟨(), ts, Nat.lt_succ_self _⟩
  else match ts with
    | .flowEntry :: rest => .ok ⟨(), rest, Nat.lt_succ_of_lt (Nat.lt_succ_self _)⟩
    | ts => .error (misplaced ts)

mutual

def readNode (handles : List (String × String)) (room : Nat) (context : Context) (g : Graph)
    (ts : List Token) : Built Nat ts.length :=
  match ts with
  | .alias name :: rest =>
    match g.anchors.lookup name with
    | some i => .ok ⟨(i, g), rest, Nat.lt_succ_self _⟩
    | none => .error .malformed
  | ts => do
    let props ← readProperties ts
    have hprops := props.lt_bound
    let name ← props.value.tag.mapM (tagName handles)
    let anchor := props.value.anchor
    match hbody : props.rest with
    | .fault f :: _ => .error f
    | .scalar text plain :: rest =>
      let (i, g) ← g.add anchor ⟨scalarTag name text plain, .scalar text⟩
      .ok ⟨(i, g), rest, by rw [hbody] at hprops; exact Nat.lt_of_succ_lt_succ hprops⟩
    | .flowSequenceStart :: rest =>
      have hrest : rest.length < ts.length := by
        rw [hbody] at hprops
        exact Nat.lt_of_succ_lt_succ hprops
      -- The node is there before its parts are read, as they may name it.
      let (i, g) ← g.add anchor ⟨tagOr name .seq, .sequence []⟩
      let items ← readFlowItems handles (← enter room) g true rest
      built (fun items g => (i, g.setContent i (.sequence items))) items (Nat.le_of_lt hrest)
    | .flowMappingStart :: rest =>
      have hrest : rest.length < ts.length := by
        rw [hbody] at hprops
        exact Nat.lt_of_succ_lt_succ hprops
      let (i, g) ← g.add anchor ⟨tagOr name .map, .mapping []⟩
      let entries ← readFlowEntries handles (← enter room) g true rest
      built (fun entries g => (i, g.setContent i (.mapping entries))) entries (Nat.le_of_lt hrest)
    | .blockSequenceStart :: rest =>
      have hrest : rest.length < ts.length := by
        rw [hbody] at hprops
        exact Nat.lt_of_succ_lt_succ hprops
      if context = .flow then .error .malformed
      else do
        let (i, g) ← g.add anchor ⟨tagOr name .seq, .sequence []⟩
        let items ← readBlockItems handles (← enter room) g rest
        built (fun items g => (i, g.setContent i (.sequence items))) items (Nat.le_of_lt hrest)
    | .blockMappingStart :: rest =>
      have hrest : rest.length < ts.length := by
        rw [hbody] at hprops
        exact Nat.lt_of_succ_lt_succ hprops
      if context = .flow then .error .malformed
      else do
        let (i, g) ← g.add anchor ⟨tagOr name .map, .mapping []⟩
        let entries ← readBlockEntries handles (← enter room) g rest
        built (fun entries g => (i, g.setContent i (.mapping entries))) entries (Nat.le_of_lt hrest)
    | body =>
      have hle : body.length ≤ ts.length := by
        rw [hbody] at hprops
        exact Nat.le_of_lt_succ hprops
      -- A sequence as far in as the key before it begins without a token.
      if context = .blockEntryValue && body.head? = some .blockEntry then do
        let (i, g) ← g.add anchor ⟨tagOr name .seq, .sequence []⟩
        let items ← readOpenItems handles (← enter room) g body
        if h : items.rest.length < ts.length then
          .ok ⟨(i, items.value.2.setContent i (.sequence items.value.1)), items.rest, h⟩
        else .error .malformed
      else if h : body.length < ts.length then do
        let (i, g) ← g.add anchor ⟨scalarTag name [] true, .scalar []⟩
        .ok ⟨(i, g), body, h⟩
      else .error .malformed
termination_by 4 * ts.length + 1
decreasing_by all_goals omega

def readNodeOrEmpty (handles : List (String × String)) (room : Nat) (context : Context)
    (stops : List Token) (g : Graph) (ts : List Token) : Built Nat (ts.length + 1) :=
  if nextIs stops ts then .ok ⟨g.addEmpty, ts, Nat.lt_succ_self _⟩
  else do
    let node ← readNode handles room context g ts
    return node.widen (by omega)
termination_by 4 * ts.length + 2
decreasing_by omega

def readValue (handles : List (String × String)) (room : Nat) (context : Context)
    (stops : List Token) (g : Graph) (ts : List Token) : Built Nat (ts.length + 1) :=
  match ts with
  | .value :: rest => do
    let node ← readNodeOrEmpty handles room context stops g rest
    return node.widen (Nat.le_succ _)
  | ts => do
    checkNext ts
    return ⟨g.addEmpty, ts, Nat.lt_succ_self _⟩
termination_by 4 * ts.length + 3
decreasing_by all_goals (simp only [List.length_cons]; omega)

def readBlockItems (handles : List (String × String)) (room : Nat) (g : Graph)
    (ts : List Token) : Built (List Nat) ts.length :=
  match ts with
  | .blockEntry :: rest => do
    let item ← readNodeOrEmpty handles room .block [.blockEntry, .blockEnd] g rest
    have hitem := item.lt_bound
    let later ← readBlockItems handles room item.value.2 item.rest
    built (fun items g => (item.value.1 :: items, g)) later (by simp only [List.length_cons]; omega)
  | .blockEnd :: rest => .ok ⟨([], g), rest, Nat.lt_succ_self _⟩
  | ts => .error (misplaced ts)
termination_by 4 * ts.length + 0
decreasing_by all_goals (simp only [List.length_cons]; omega)

/-- Reads the items of a sequence that is indented like the key before it, which has no end of its
own. -/
def readOpenItems (handles : List (String × String)) (room : Nat) (g : Graph)
    (ts : List Token) : Built (List Nat) (ts.length + 1) :=
  match ts with
  | .blockEntry :: rest => do
    let item ← readNodeOrEmpty handles room .block [.blockEntry, .key, .value, .blockEnd] g rest
    have hitem := item.lt_bound
    let later ← readOpenItems handles room item.value.2 item.rest
    built (fun items g => (item.value.1 :: items, g)) later (by simp only [List.length_cons]; omega)
  | ts => do
    checkNext ts
    return ⟨([], g), ts, Nat.lt_succ_self _⟩
termination_by 4 * ts.length + 0
decreasing_by all_goals (simp only [List.length_cons]; omega)

def readBlockEntries (handles : List (String × String)) (room : Nat) (g : Graph)
    (ts : List Token) : Built (List (Nat × Nat)) ts.length :=
  match ts with
  | .key :: rest => do
    let stops := [Token.key, .value, .blockEnd]
    let key ← readNodeOrEmpty handles room .blockEntryValue stops g rest
    have hkey := key.lt_bound
    let value ← readValue handles room .blockEntryValue stops key.value.2 key.rest
    have hvalue := value.lt_bound
    let later ← readBlockEntries handles room value.value.2 value.rest
    built (fun entries g => ((key.value.1, value.value.1) :: entries, g)) later
      (by simp only [List.length_cons]; omega)
  | .blockEnd :: rest => .ok ⟨([], g), rest, Nat.lt_succ_self _⟩
  | ts => .error (misplaced ts)
termination_by 4 * ts.length + 0
decreasing_by all_goals (simp only [List.length_cons]; omega)

def readFlowItems (handles : List (String × String)) (room : Nat) (g : Graph) (isFirst : Bool)
    (ts : List Token) : Built (List Nat) ts.length := do
  let start ← readSeparator isFirst .flowSequenceEnd ts
  have hstart := start.lt_bound
  match hbody : start.rest with
  | .flowSequenceEnd :: rest =>
    .ok ⟨([], g), rest, by rw [hbody] at hstart; exact Nat.lt_of_succ_lt_succ hstart⟩
  | .key :: rest =>
    have hshort : rest.length < ts.length := by
      rw [hbody] at hstart
      exact Nat.lt_of_succ_lt_succ hstart
    -- A single entry stands for a mapping of its own.
    let inner ← enter room
    let (i, g) ← g.add none ⟨.map, .mapping []⟩
    let key ← readNodeOrEmpty handles inner .flow [.value, .flowEntry, .flowSequenceEnd] g rest
    have hkey := key.lt_bound
    let value ← readValue handles inner .flow [.flowEntry, .flowSequenceEnd] key.value.2 key.rest
    have hvalue := value.lt_bound
    let g := value.value.2.setContent i (.mapping [(key.value.1, value.value.1)])
    let later ← readFlowItems handles room g false value.rest
    built (fun items g => (i :: items, g)) later (by omega)
  | body => do
    have hshort : body.length ≤ ts.length := by
      rw [hbody] at hstart
      exact Nat.le_of_lt_succ hstart
    let item ← readNode handles room .flow g body
    have hitem := item.lt_bound
    let later ← readFlowItems handles room item.value.2 false item.rest
    built (fun items g => (item.value.1 :: items, g)) later (by omega)
termination_by 4 * ts.length + 2
decreasing_by all_goals omega

def readFlowEntries (handles : List (String × String)) (room : Nat) (g : Graph) (isFirst : Bool)
    (ts : List Token) : Built (List (Nat × Nat)) ts.length := do
  let start ← readSeparator isFirst .flowMappingEnd ts
  have hstart := start.lt_bound
  match hbody : start.rest with
  | .flowMappingEnd :: rest =>
    .ok ⟨([], g), rest, by rw [hbody] at hstart; exact Nat.lt_of_succ_lt_succ hstart⟩
  | .key :: rest =>
    have hshort : rest.length < ts.length := by
      rw [hbody] at hstart
      exact Nat.lt_of_succ_lt_succ hstart
    let key ← readNodeOrEmpty handles room .flow [.value, .flowEntry, .flowMappingEnd] g rest
    have hkey := key.lt_bound
    let value ← readValue handles room .flow [.flowEntry, .flowMappingEnd] key.value.2 key.rest
    have hvalue := value.lt_bound
    let later ← readFlowEntries handles room value.value.2 false value.rest
    built (fun entries g => ((key.value.1, value.value.1) :: entries, g)) later (by omega)
  | body => do
    have hshort : body.length ≤ ts.length := by
      rw [hbody] at hstart
      exact Nat.le_of_lt_succ hstart
    let key ← readNode handles room .flow g body
    have hkey := key.lt_bound
    let (empty, g) := key.value.2.addEmpty
    let later ← readFlowEntries handles room g false key.rest
    built (fun entries g => ((key.value.1, empty) :: entries, g)) later (by omega)
termination_by 4 * ts.length + 2
decreasing_by all_goals omega

end

/-! ## Documents -/

def defaultHandles : List (String × String) :=
  [("!", "!"), ("!!", Tag.corePart)]

/-- Reads the directives before a document, which may declare a version once and each handle once;
the version has to be 1. -/
def readDirectives (versionSeen : Bool) (handles : List (String × String)) :
    List Token → Except Fault (List (String × String) × List Token)
  | .directive (.version major) :: rest =>
    if versionSeen || major ≠ 1 then .error .malformed else readDirectives true handles rest
  | .directive (.tag handle expansion) :: rest =>
    if (handles.lookup handle).isSome then .error .malformed
    else readDirectives versionSeen ((handle, expansion) :: handles) rest
  | .directive .other :: rest => readDirectives versionSeen handles rest
  | rest => .ok (handles, rest)

/-- A document: its nodes, and the number of the one that contains the others. -/
structure Document where
  nodes : Array Node
  root : Nat
deriving Repr

def readRoot [CallStack] (handles : List (String × String)) (mayBeMissing : Bool)
    (ts : List Token) : Except Fault (Document × List Token) :=
  let isMissing : Bool := match ts with
    | [] | .directive _ :: _ | .documentStart :: _ | .documentEnd :: _ => true
    | _ => false
  if mayBeMissing && isMissing then
    let (i, g) := Graph.empty.addEmpty
    .ok (⟨g.nodes, i⟩, ts)
  else do
    let node ← readNode handles CallStack.composed .block Graph.empty ts
    return (⟨node.value.2.nodes, node.value.1⟩, node.rest)

/-- Reads what may follow a document, which is only signs that it has ended. -/
def readEnd : List Token → Except Fault Unit
  | [] => .ok ()
  | .documentEnd :: rest => readEnd rest
  | ts => do
    let (_, rest) ← readDirectives false [] ts
    .error (misplaced rest)

def Document.ofTokens [CallStack] (ts : List Token) : Except Fault (Option Document) :=
  match ts with
  | [] => .ok none
  | _ => do
    let (document, rest) ←
      match ts with
      | .directive _ :: _ | .documentStart :: _ => do
        let (handles, afterDirectives) ← readDirectives false [] ts
        match afterDirectives with
        | .documentStart :: body => readRoot (handles ++ defaultHandles) true body
        | rest => .error (misplaced rest)
      | body => readRoot defaultHandles false body
    readEnd rest
    return some document

end LetFun.Yaml
