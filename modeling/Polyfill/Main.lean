import Polyfill.Command.Run
/-!
# The program

Fetches what the command line needs from the outside, runs the command, and puts its outcome into
effect.
-/

namespace Polyfill

/-- The bytes of a file, if it can be read. -/
def readFile? (path : String) : IO (Option (List UInt8)) := do
  try
    return some (← IO.FS.readBinFile path).toList
  catch _ =>
    return none

/-- Writes a file; tells whether that went well. -/
def writeFile (path : String) (content : List UInt8) : IO Bool := do
  try
    IO.FS.writeBinFile path (ByteArray.mk content.toArray)
    return true
  catch _ =>
    return false

/-- Everything on the standard input. -/
partial def readAll (stream : IO.FS.Stream) (read : ByteArray) : IO ByteArray := do
  let chunk ← stream.read 65536
  if chunk.isEmpty then return read else readAll stream (read ++ chunk)

end Polyfill

open Polyfill in
/-- The command line of the library. -/
def main (args : List String) : IO UInt32 := do
  let files ← match Command.wantedFile? args with
    | some path => do
      match ← readFile? path with
      | some content => pure [(path, content)]
      | none => pure []
    | none => pure []
  let stdin ←
    if Command.wantsStdin args then
      pure (← readAll (← IO.getStdin) ByteArray.empty).toList
    else
      pure []
  let entropy := Entropy.ofBytes (← IO.getRandomBytes (Command.wantedEntropy args).toUSize)
  let mut outcome := Command.run args stdin ⟨files, fun _ => true⟩ entropy
  if let some (path, content) := outcome.saved then
    unless ← writeFile path content do
      outcome := Command.run args stdin ⟨files, fun _ => false⟩ entropy
  IO.print outcome.stdout
  IO.eprint outcome.stderr
  return outcome.code.toUInt32
