import LetFun.Tree.Walk
/-!
# Faults of node data

What can be wrong with the data that a node is to be built from: a problem, and the path to the
part that has it.
-/

namespace LetFun

inductive Step where
  | field (name : String)
  | index (i : Nat)
deriving DecidableEq, Repr

inductive Problem where
  | missing
  | notObject (wanted : NodeType)
  | notList
  | notText
  | brokenText
  | notAmong (first : String) (others : List String)
  | notInteger
  | notIntegerText
  | integerTooLarge
  | fractional
  | notFinite
  | frozen
deriving DecidableEq, Repr

namespace Problem

def code : Problem → String
  | .missing => "missing"
  | .notObject _ => "model_type"
  | .notList => "tuple_type"
  | .notText => "string_type"
  | .brokenText => "string_unicode"
  | .notAmong _ _ => "literal_error"
  | .notInteger => "int_type"
  | .notIntegerText => "int_parsing"
  | .integerTooLarge => "int_parsing_size"
  | .fractional => "int_from_float"
  | .notFinite => "finite_number"
  | .frozen => "frozen_instance"

/-- Alternatives after a first one, in quotes: commas between them, and "or" before the last. -/
def alternatives : List String → String
  | [] => ""
  | [last] => s!" or '{last}'"
  | next :: rest => s!", '{next}'" ++ alternatives rest

def message : Problem → String
  | .missing => "Field required"
  | .notObject wanted => "Input should be a valid dictionary or instance of " ++ wanted.name
  | .notList => "Input should be a valid tuple"
  | .notText => "Input should be a valid string"
  | .brokenText => "Input should be a valid string, unable to parse raw data as a unicode string"
  | .notAmong first others => s!"Input should be '{first}'" ++ alternatives others
  | .notInteger => "Input should be a valid integer"
  | .notIntegerText => "Input should be a valid integer, unable to parse string as an integer"
  | .integerTooLarge => "Unable to parse input string as an integer, exceeded maximum size"
  | .fractional => "Input should be a valid integer, got a number with a fractional part"
  | .notFinite => "Input should be a finite number"
  | .frozen => "Instance is frozen"

def notKind : Problem :=
  .notAmong "var" ["let", "const"]

def wrongTag (wanted : NodeType) : Problem :=
  .notAmong wanted.name []

end Problem

structure Fault where
  path : List Step
  problem : Problem
deriving DecidableEq, Repr

namespace Fault

def here (problem : Problem) : Fault :=
  ⟨[], problem⟩

/-- The fault seen from the value that has the faulty one as its part `step`. -/
def under (step : Step) (f : Fault) : Fault :=
  ⟨step :: f.path, f.problem⟩

end Fault

/-- Data from which no node of type `wanted` can be built, with everything that is wrong with it. -/
structure InvalidNode where
  wanted : NodeType
  faults : List Fault
deriving DecidableEq, Repr

end LetFun
