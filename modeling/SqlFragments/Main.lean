import SqlFragments.Command.Outcome

/-! # The program

Reads files and standard input, and writes what a request comes to. -/

namespace SqlFragments.Main

open SqlFragments.Command

/-- What the system reports. -/
def readError : IO.Error → ReadError
  | .noFileOrDirectory _ code details => .system code.toNat details
  | .permissionDenied _ code details => .system code.toNat details
  | .inappropriateType _ code details => .system code.toNat details
  | .invalidArgument _ code details => .system code.toNat details
  | .otherError code details => .system code.toNat details
  | e => .system 0 (toString e)

/-- Reads a file. -/
def readFile (path : String) : IO Content := do
  match (← (IO.FS.readBinFile path).toBaseIO) with
  | .ok bytes => return .ok bytes
  | .error e => return .error (readError e)

/-- Reads a stream to its end. -/
partial def readStream (stream : IO.FS.Stream) (soFar : ByteArray) : IO ByteArray := do
  let bytes ← stream.read 65536
  if bytes.isEmpty then return soFar
  readStream stream (soFar ++ bytes)

/-- Reads standard input, unless it is a terminal. -/
def readInput : IO (Option Content) := do
  let stdin ← IO.getStdin
  if (← stdin.isTty) then return none
  match (← (readStream stdin .empty).toBaseIO) with
  | .ok bytes => return some (.ok bytes)
  | .error e => return some (.error (readError e))

/-- Reads what a request needs and runs it. -/
def runRequest (request : Request) : IO (Option Outcome) := do
  let input ← if request.readsInput then readInput else pure none
  let contents ← request.paths.mapM readFile
  return request.run input contents

/-- Runs the program with arguments. -/
def runArguments (args : List String) : IO (Option Outcome) :=
  match Request.ofArguments args with
  | .error e => return some (.misuse e)
  | .ok request => runRequest request

end SqlFragments.Main

/-- The program. -/
def main (args : List String) : IO UInt32 := do
  match (← SqlFragments.Main.runArguments args) with
  | none =>
    IO.eprintln "fragments nest too deeply"
    return 1
  | some outcome =>
    IO.print outcome.stdout
    IO.eprint outcome.stderr
    return UInt32.ofNat outcome.code
