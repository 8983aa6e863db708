import LetFun.Command.Usage
import LetFun.Number.Integer
/-!
# Reading command lines

A command line is switches, a command, and the switches and the file of that command in any order.
Long switches may be cut short as long as only one fits, and a value may be attached to its switch.
After `--` nothing is a switch. Arguments without a meaning are reported together, but only if
nothing else is wrong.
-/

namespace LetFun.Command

/-! ## Single arguments -/

/-- What is written together with a switch: a value after an equals sign, or a text right after the
letter of a short switch. -/
inductive Attachment where
  | nothing
  | equals (value : String)
  | joined (text : String)
deriving DecidableEq, Repr

/-- One argument by its form: a switch, what looks like a switch but is none, the mark after which
nothing is a switch, and anything else. -/
inductive Argument where
  | plain (text : String)
  | separator
  | switch (s : Switch) (attached : Attachment)
  | unknown (text : String)
deriving DecidableEq, Repr

def separatorText : String := "--"

def spelled (switches : List Switch) : List (String × Switch) :=
  switches.flatMap fun s => s.spellings.map fun spelling => (spelling, s)

def splitEquals (cs : List Char) : List Char × Attachment :=
  let name := cs.takeWhile (· ≠ '=')
  match cs.drop name.length with
  | [] => (name, .nothing)
  | _ :: value => (name, .equals (String.ofList value))

/-- Whether a text is a minus sign and a number, digits of any script with at most one point among
them and one digit at the end. A line feed may follow. -/
def isNegativeNumber (cs : List Char) : Bool :=
  match if cs.getLast? = some '\n' then cs.dropLast else cs with
  | '-' :: number =>
    let isDigit := fun c => (decimalDigit? c).isSome
    match number.dropWhile isDigit with
    | [] => !number.isEmpty
    | '.' :: fraction => !fraction.isEmpty && fraction.all isDigit
    | _ => false
  | _ => false

/-- The switches that a text with a minus sign in front may be, by the spellings that it starts or
is a short form of. -/
def candidates (switches : List Switch) (cs : List Char) : List (String × Argument) :=
  match cs with
  | '-' :: '-' :: _ =>
    let (name, attached) := splitEquals cs
    (spelled switches).filterMap fun (spelling, s) =>
      if name.isPrefixOf spelling.toList then some (spelling, .switch s attached) else none
  | _ =>
    (spelled switches).filterMap fun (spelling, s) =>
      if spelling.toList = cs.take 2 then
        some (spelling, .switch s (.joined (String.ofList (cs.drop 2))))
      else none

def classify (switches : List Switch) (text : String) : Except UsageProblem Argument :=
  let cs := text.toList
  let (name, attached) := splitEquals cs
  if cs.head? ≠ some '-' ∨ cs.length = 1 then .ok (.plain text)
  else
    match (spelled switches).lookup (String.ofList name) with
    | some s => .ok (.switch s attached)
    | none =>
      match candidates switches cs with
      | [(_, a)] => .ok a
      | [] => .ok (if isNegativeNumber cs || cs.contains ' ' then .plain text else .unknown text)
      | several => .error (.ambiguous text (several.map (·.1)))

def classifyAll (switches : List Switch) : List String → Except UsageProblem (List Argument)
  | [] => .ok []
  | text :: rest =>
    if text = separatorText then .ok (.separator :: rest.map .plain)
    else do
      let first ← classify switches text
      return first :: (← classifyAll switches rest)

/-! ## Values -/

def readWidth (text : String) : Except UsageProblem Nat :=
  match readInteger 10 text.toList with
  | .error _ => .error (.notInteger text)
  | .ok i => if i < 0 then .error (.negative i) else .ok i.toNat

def setValue (o : Options) (s : Switch) (value : String) : Except UsageProblem Options :=
  let path := if value = "" then none else some value
  match s with
  | .config => .ok { o with config := path }
  | .output => .ok { o with output := path }
  | .indent => do return { o with indent := some (← readWidth value) }
  | .help | .strict | .compact => .ok o

def setOn (o : Options) : Switch → Options
  | .strict => { o with strict := true }
  | .compact => { o with compact := true }
  | _ => o

/-- Checks a text joined to a short switch without a value. Each of its letters may be one more
short switch, up to one that takes a value or is none. -/
def checkJoined (switches : List Switch) (rest : List Argument) :
    List Char → Except UsageProblem Unit
  | [] => .ok ()
  | c :: cs =>
    if c = '-' then .error (.ignoredValue .help (String.ofList (c :: cs)))
    else match (spelled switches).lookup (String.ofList ['-', c]), cs with
      | none, _ => .ok ()
      | some s, [] =>
        match rest with
        | .plain _ :: _ => .ok ()
        | _ => if s.takesValue then .error (.noValue s) else .ok ()
      | some s, '=' :: value =>
        if s.takesValue then .ok () else .error (.ignoredValue s (String.ofList value))
      | some s, _ => if s.takesValue then .ok () else checkJoined switches rest cs

def checkNoValue (switches : List Switch) (rest : List Argument) (s : Switch) :
    Attachment → Except UsageProblem Unit
  | .nothing => .ok ()
  | .equals value => .error (.ignoredValue s value)
  | .joined text => checkJoined switches rest text.toList

/-! ## Command lines -/

structure Reading where
  file : Option String := none
  options : Options := {}
  unrecognized : List String := []
deriving DecidableEq, Repr

def Reading.without (r : Reading) (text : String) : Reading :=
  { r with unrecognized := r.unrecognized ++ [text] }

/-- Reads the arguments of a command; there is no reading of those that ask for help. The first
plain argument is the file, and takes a separator beside it with it. -/
def readArguments (switches : List Switch) (r : Reading) :
    List Argument → Except UsageProblem (Option Reading)
  | [] => .ok (some r)
  -- A separator goes with the file that is behind it or before it.
  | .separator :: .plain text :: rest =>
    if r.file.isNone then readArguments switches { r with file := some text } rest
    else readArguments switches ((r.without separatorText).without text) rest
  | .separator :: rest => readArguments switches (r.without separatorText) rest
  | .plain text :: .separator :: rest =>
    if r.file.isNone then readArguments switches { r with file := some text } rest
    else readArguments switches (r.without text) (.separator :: rest)
  | .plain text :: rest =>
    if r.file.isNone then readArguments switches { r with file := some text } rest
    else readArguments switches (r.without text) rest
  | .unknown text :: rest => readArguments switches (r.without text) rest
  | .switch s attached :: rest =>
    if s.takesValue then
      match attached, rest with
      | .equals value, rest | .joined value, rest | .nothing, .plain value :: rest => do
        readArguments switches { r with options := ← setValue r.options s value } rest
      | .nothing, _ => .error (.noValue s)
    else do
      checkNoValue switches rest s attached
      if s = .help then return none
      else readArguments switches { r with options := setOn r.options s } rest

/-- Reads what follows a command. Arguments without a meaning that come before the command are those
in `unrecognized`. -/
def readCommand (command : Command) (unrecognized texts : List String) :
    Except UsageError Request := do
  let here := fun problem => UsageError.mk (some command) problem
  let switches := Switch.available command
  let arguments ← (classifyAll switches texts).mapError here
  match ← (readArguments switches {} arguments).mapError here with
  | none => return .help command
  | some r =>
    match r.file with
    | none => .error (here .noFile)
    | some file =>
      let all := unrecognized ++ r.unrecognized
      if all = [] then return .run command file r.options
      else .error ⟨none, .unrecognized all⟩

def readRequest (unrecognized : List String) : List String → Except UsageError Request
  | [] => if unrecognized = [] then .ok (.help none) else .error ⟨none, .unrecognized unrecognized⟩
  | text :: rest => do
    let here := fun problem => UsageError.mk none problem
    if text = separatorText then
      if rest = [] then readRequest (unrecognized ++ [text]) rest
      else .error (here (.unknownCommand text))
    else
      match ← (classify (Switch.available none) text).mapError here with
      | .switch s attached =>
        ((checkNoValue (Switch.available none) [] s attached).mapError here).map
          fun _ => .help none
      | .unknown _ => readRequest (unrecognized ++ [text]) rest
      | _ =>
        match Command.ofName? text with
        | some command => readCommand command unrecognized rest
        | none => .error (here (.unknownCommand text))

def request (arguments : List String) : Except UsageError Request :=
  readRequest [] arguments

end LetFun.Command
