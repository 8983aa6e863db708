import LetFun.Command.Run
/-!
# The program

Runs the command line on the files of the machine.
-/

namespace LetFun

def reported : IO.Error → Nat × String
  | .alreadyExists _ code text | .otherError code text | .resourceBusy code text
  | .resourceVanished code text | .unsupportedOperation code text | .hardwareFault code text
  | .unsatisfiedConstraints code text | .illegalOperation code text | .protocolError code text
  | .timeExpired code text | .interrupted _ code text | .noFileOrDirectory _ code text
  | .invalidArgument _ code text | .permissionDenied _ code text
  | .resourceExhausted _ code text | .inappropriateType _ code text
  | .noSuchThing _ code text => (code.toNat, text)
  | .unexpectedEof => (0, "Unexpected end of file")
  | .userError text => (0, text)

def FileProblem.ofReported (number : Nat) (text : String) : FileProblem :=
  ([FileProblem.notFound, .exists, .notDirectory, .isDirectory, .nameTooLong].find?
    (·.number = number)).getD (.other number text)

def onMachine {α : Type} (p : Path) (act : String → IO α) : ExceptT FileError IO α :=
  ExceptT.mk do
    if p.hasNul then return .error .nulInPath
    try return .ok (← act p.text)
    catch e =>
      let (number, text) := reported e
      return .error (.at p (.ofReported number text))

instance : FileAccess IO where
  kind p := onMachine p fun text => do
    match (← (← IO.FS.realPath text).metadata).type with
    | .file => return .file
    | .dir => return .directory
    | _ => return .other
  readBytes p := onMachine p fun text => do return (← IO.FS.readBinFile text).toList
  writeBytes p bytes := onMachine p fun text => IO.FS.writeBinFile text ⟨bytes.toArray⟩
  makeDirectory p := onMachine p fun text => IO.FS.createDir text
  absolute p := onMachine p fun text => do
    return Path.ofString (← IO.FS.realPath text).toString

end LetFun

open LetFun in
def main (arguments : List String) : IO UInt32 := do
  let run : IO Command.Outcome := Command.run arguments
  let outcome ← run
  IO.print outcome.output
  IO.eprint outcome.errors
  match outcome.ending with
  | .exit code => return code.toUInt32
  | .failure cause =>
    IO.eprintln cause.message
    return 1
