import LetFun.Yaml.Fault
/-!
# YAML tokens

What the text of a stream is made of: the marks that start, separate and end collections, some of
them implied by indentation alone, and the names, tags and scalars between them. Where the text goes
on with a fault, its tokens end with the fault, which counts only when all before it is taken.
-/

namespace LetFun.Yaml

structure TagText where
  handle : Option String
  suffix : String
deriving DecidableEq, Repr

inductive Directive where
  | version (major : Nat)
  | tag (handle expansion : String)
  | other
deriving DecidableEq, Repr

inductive Token where
  | directive (d : Directive)
  | documentStart
  | documentEnd
  | blockSequenceStart
  | blockMappingStart
  | blockEnd
  | flowSequenceStart
  | flowSequenceEnd
  | flowMappingStart
  | flowMappingEnd
  | blockEntry
  | flowEntry
  | key
  | value
  | alias (name : String)
  | anchor (name : String)
  | tag (t : TagText)
  | scalar (text : Text) (plain : Bool)
  | fault (f : Fault)
deriving DecidableEq, Repr

end LetFun.Yaml
