import LetFun.Yaml.Graph
import LetFun.Yaml.Token.Scan
import LetFun.Yaml.Value
/-!
# Values of documents

The value of each node of a document under its tag. Nodes get their values one after the other, from
the root on; a collection has its value before its parts have theirs, and the parts wait until the
collections before it are done. A mapping merges others into itself when it is its turn, or that of
one that it is merged into; the mapping is changed by that, and what comes later sees the change.
Only scalars can be keys.
-/

namespace LetFun.Yaml

inductive Value where
  | scalar (s : Scalar)
  | collection

abbrev Entries := List (Nat × Nat)

/-- A document whose nodes are given values: its nodes as they are by now, the values so far, and
the collections whose parts wait for theirs. -/
structure Construction where
  nodes : Array Node
  values : List (Nat × Value)
  queue : List Nat

namespace Construction

/-! ## Nodes -/

def start (d : Document) : Construction :=
  ⟨d.nodes, [], []⟩

def tag? (s : Construction) (i : Nat) : Option Tag :=
  s.nodes[i]?.map (·.tag)

def content? (s : Construction) (i : Nat) : Option Content :=
  s.nodes[i]?.map (·.content)

def entries (s : Construction) (i : Nat) : Entries :=
  match s.content? i with
  | some (.mapping es) => es
  | _ => []

def isMapping (s : Construction) (i : Nat) : Bool :=
  match s.content? i with
  | some (.mapping _) => true
  | _ => false

def setEntries (s : Construction) (i : Nat) (es : Entries) : Construction :=
  { s with nodes := s.nodes.modify i fun n => { n with content := .mapping es } }

/-- The text of a node: of a scalar its own, and of a mapping that of the node under the key `=`. -/
def textOf (s : Construction) : (room i : Nat) → Except Fault Text
  | 0, _ => .error .tooDeep
  | room + 1, i =>
    match s.content? i with
    | some (.scalar text) => .ok text
    | some (.mapping es) =>
      match es.find? fun e => s.tag? e.1 = some .value with
      | some e => s.textOf room e.2
      | none => .error .malformed
    | _ => .error .malformed

/-! ## Merging -/

def isMerge (s : Construction) (e : Nat × Nat) : Bool :=
  s.tag? e.1 = some .merge

def nameKeys (s : Construction) (i : Nat) : Construction :=
  let keys := (s.entries i).map (·.1)
  { s with nodes := s.nodes.mapIdx fun j n =>
      if n.tag = .value ∧ j ∈ keys then { n with tag := .str } else n }

section

variable (flatten : Construction → Nat → Except Fault Construction)

def mergeItems : (items : List Nat) → Construction → Except Fault (List Entries × Construction)
  | [], s => .ok ([], s)
  | item :: items, s =>
    if s.isMapping item then do
      let s ← flatten s item
      let es := s.entries item
      let (later, s) ← mergeItems items s
      return (es :: later, s)
    else .error .malformed

/-- What a mapping or the mappings of a sequence give to one that they are merged into; of several
mappings the first one wins, so it comes last. -/
def mergeNode (s : Construction) (i : Nat) : Except Fault (Entries × Construction) :=
  match s.content? i with
  | some (.mapping _) => do
    let s ← flatten s i
    return (s.entries i, s)
  | some (.sequence items) => do
    let (parts, s) ← mergeItems flatten items s
    return (parts.reverse.flatten, s)
  | _ => .error .malformed

/-- What a mapping merges by some of its entries, and the entries are taken away. They may be gone
already, where the mapping is merged into itself. -/
def mergeEntries (i : Nat) : (marks : Entries) → Construction →
    Except Fault (Entries × Construction)
  | [], s => .ok ([], s)
  | e :: marks, s =>
    -- It is taken away before its value is looked at, so a mapping that leads back to this one does
    -- not merge it again.
    if e ∈ s.entries i then do
      let (es, s) ← mergeNode flatten (s.setEntries i ((s.entries i).erase e)) e.2
      let (later, s) ← mergeEntries i marks s
      return (es ++ later, s)
    else mergeEntries i marks s

end

def flatten : (room : Nat) → Construction → Nat → Except Fault Construction
  | 0, _, _ => .error .tooDeep
  | room + 1, s, i => do
    let marks := (s.entries i).filter s.isMerge
    let (merged, s) ← mergeEntries (flatten room) i marks s
    let named := s.nameKeys i
    return named.setEntries i (merged ++ named.entries i)

/-! ## Values -/

def put (s : Construction) (i : Nat) (v : Value) : Construction :=
  { s with values := (i, v) :: s.values }

def valueOf [CallStack] (s : Construction) (i : Nat) : Except Fault (Value × Construction) :=
  match s.values.lookup i with
  | some v => .ok (v, s)
  | none =>
    match s.tag? i with
    | none | some .merge | some .value | some (.other _) => .error .malformed
    | some .seq | some .omap | some .pairs | some .set | some .map =>
      -- A collection has a value before its parts have theirs, as it may be one of them.
      .ok (.collection, { s.put i .collection with queue := s.queue ++ [i] })
    | some tag => do
      let text ← s.textOf CallStack.followed i
      if tag = .timestamp ∧ s.isMapping i then .error .timestampOfMapping
      else
        let v ← scalarOf i tag text
        return (.scalar v, s.put i (.scalar v))

def valuesOf [CallStack] : (parts : List Nat) → Construction → Except Fault Construction
  | [], s => .ok s
  | i :: parts, s => do
    let (_, s) ← s.valueOf i
    valuesOf parts s

def entriesOf [CallStack] : Entries → Construction →
    Except Fault (List (Scalar × Value) × Construction)
  | [], s => .ok ([], s)
  | e :: es, s => do
    let (key, s) ← s.valueOf e.1
    match key with
    | .collection => .error .malformed
    | .scalar key => do
      let (value, s) ← s.valueOf e.2
      let (later, s) ← entriesOf es s
      return ((key, value) :: later, s)

/-- The values of the keys and values of mappings with one entry each. -/
def pairsOf [CallStack] : (items : List Nat) → Construction → Except Fault Construction
  | [], s => .ok s
  | item :: items, s =>
    match s.content? item with
    | some (.mapping [e]) => do
      let s ← valuesOf [e.1, e.2] s
      pairsOf items s
    | _ => .error .malformed

def fill [CallStack] (s : Construction) (i : Nat) :
    Except Fault (List (Scalar × Value) × Construction) :=
  match s.tag? i, s.content? i with
  | some .map, some (.mapping _) | some .set, some (.mapping _) => do
    let s ← flatten CallStack.followed s i
    entriesOf (s.entries i) s
  | some .seq, some (.sequence items) => do return ([], ← valuesOf items s)
  | some .omap, some (.sequence items) | some .pairs, some (.sequence items) => do
    return ([], ← pairsOf items s)
  | _, _ => .error .malformed

/-- With values for all parts of the collections that wait, as long as there is fuel. -/
def fillAll [CallStack] : (fuel : Nat) → Construction → Except Fault Construction
  | 0, s => .ok s
  | fuel + 1, s =>
    match s.queue with
    | [] => .ok s
    | i :: queue => do
      let (_, s) ← { s with queue := queue }.fill i
      fillAll fuel s

end Construction

/-! ## Whole streams -/

/-- What a stream holds: a scalar, a collection that is no mapping, or a mapping with different
keys. -/
inductive Contents where
  | value (v : Value)
  | mapping (entries : List (Scalar × Value))

def putEntry (key : Scalar) (value : Value) : List (Scalar × Value) → List (Scalar × Value)
  | [] => [(key, value)]
  | (k, v) :: rest =>
    if k.same key then (k, value) :: rest else (k, v) :: putEntry key value rest

/-- What a document holds. Every collection waits once, so there are at most as many to fill as
nodes. -/
def Document.contents [CallStack] (d : Document) : Except Fault Contents := do
  let (root, s) ← (Construction.start d).valueOf d.root
  match root with
  | .scalar v => return .value (.scalar v)
  | .collection => do
    let (entries, s) ← { s with queue := [] }.fill d.root
    let _ ← Construction.fillAll d.nodes.size s
    if (Construction.start d).tag? d.root = some .map then
      return .mapping (entries.foldl (fun es e => putEntry e.1 e.2 es) [])
    else return .value .collection

def load [CallStack] (text : String) : Except Fault Contents := do
  match ← Document.ofTokens (tokenize text.toList) with
  | none => return .value (.scalar .null)
  | some d => d.contents

end LetFun.Yaml
