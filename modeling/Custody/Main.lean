import Custody.Command.Basic
import Custody.Digest.Sha256

/-!
# The command line

Reads the files that the arguments name, and prints what comes of it.
-/

namespace Custody

def readContent (path : String) : IO Content := do
  try
    return .ok (← IO.FS.readBinFile path)
  catch error =>
    return .error (toString error)

def readInput : IO Content := do
  try
    return .ok (← (← IO.getStdin).readBinToEnd)
  catch error =>
    return .error (toString error)

def runArguments (args : List String) : IO Result := do
  match Invocation.ofArguments args with
  | .error stop => return .ofStop stop
  | .ok invocation =>
    let mut contents : List (String × Content) := []
    for path in invocation.paths do
      contents := (path, ← readContent path) :: contents
    let input ←
      match invocation.task with
      | .hash none _ => readInput
      | _ => pure (.error "not read")
    let read (path : String) : Content := (contents.lookup path).getD (.error "not read")
    return .ofOutput (invocation.perform Sha256.hash read input)

end Custody

def main (args : List String) : IO UInt32 := do
  let result ← Custody.runArguments args
  IO.print result.output
  (← IO.getStdout).flush
  if let some complaint := result.complaint then
    IO.eprintln ("error: " ++ complaint)
  return result.status.toUInt32
