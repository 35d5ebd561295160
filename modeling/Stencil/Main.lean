import Stencil.CommandLine
import Stencil.Json.Reader

/-!
# The program

Reads files and prints; everything else is decided by the command line.
-/

namespace Stencil

def fileError : IO.Error → FileError
  | .noFileOrDirectory .. => .notFound
  | .inappropriateType none .. => .isDirectory
  | .inappropriateType (some _) .. => .notDirectory
  | .invalidArgument .. => .nameTooLong
  | other => .other (toString other)

def readFile (path : String) : IO (Except FileError String) := do
  try
    let bytes ← IO.FS.readBinFile path
    match String.fromUTF8? bytes with
    | some text => return .ok text
    | none => return .error .notText
  catch error =>
    return .error (fileError error)

def writeOutput (text : String) : IO (Except FileError Unit) := do
  try
    let stdout ← IO.getStdout
    stdout.putStr text
    stdout.flush
    return .ok ()
  catch error =>
    return .error (fileError error)

end Stencil

def main (args : List String) : IO UInt32 := do
  let start ← IO.monoNanosNow
  let answer ← Stencil.Command.answer Stencil.Json.standard Stencil.readFile args
  let stop ← IO.monoNanosNow
  let elapsed := ((stop - start) / 1000).repr ++ "µs"
  let written ← Stencil.writeOutput (answer.report elapsed).stdout
  let report := (answer.afterWriting written).report elapsed
  (← IO.getStderr).putStr report.stderr
  return report.status.toUInt32
