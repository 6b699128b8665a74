import FlatMemory.CommandLine

/-!
# The program

The outer layer: takes the words of the command line, the environment and the file
from the operating system, and writes the exit of the run.
-/

namespace FlatMemory.Program

/-- A failure of the operating system.  A number without a meaning of its own here is
shown with the system's words. -/
def ioError (e : IO.Error) : IoError :=
  match e with
  | .alreadyExists _ code words | .noFileOrDirectory _ code words
  | .invalidArgument _ code words | .permissionDenied _ code words
  | .resourceExhausted _ code words | .inappropriateType _ code words
  | .noSuchThing _ code words | .interrupted _ code words
  | .otherError code words | .resourceBusy code words | .resourceVanished code words
  | .unsupportedOperation code words | .hardwareFault code words
  | .unsatisfiedConstraints code words | .illegalOperation code words
  | .protocolError code words | .timeExpired code words =>
    match Errno.ofCode? code.toNat with
    | some errno => .os errno
    | none => .custom .uncategorized (words ++ " (os error " ++ toString code ++ ")")
  | .unexpectedEof => .plain .unexpectedEof
  | .userError words => .custom .other words

/-- The readings of an open file, up to `limit` that deliver something. -/
def readings (handle : IO.FS.Handle) (limit : Nat) : BaseIO (List Reading) := do
  let mut made := #[]
  let mut left := limit
  while left ≠ 0 do
    match ← (handle.read (USize.ofNat chunkSize)).toBaseIO with
    | .error e =>
      let reading := Reading.failed (ioError e)
      made := made.push reading
      unless reading.isInterrupted do left := 0
    | .ok bytes =>
      made := made.push (.exactly bytes.toList)
      left := if bytes.isEmpty then 0 else left - 1
  return made.toList

/-- The readings of a file.  No load asks for more of them than there are bytes in the
code region, and one. -/
def openFile (path : String) : BaseIO (Except IoError (List Reading)) := do
  match ← (IO.FS.Handle.mk path .read).toBaseIO with
  | .error e => return .error (ioError e)
  | .ok handle => return .ok (← readings handle (Layout.standard.capacity + 1))

def usage : String :=
  "Usage: tiny-vm [--log-level <LEVEL>] [--] <FILE>"

def run (args : List String) : IO UInt32 := do
  let request := Request.ofArgs args
  let file ← match request with
    | .list path _ => openFile path
    | _ => pure (.ok [])
  let exit := CommandLine.run (fun _ => file) (← IO.getEnv "RUST_LOG") args
  let stderr ← IO.getStderr
  if request = .help then IO.println usage
  if request = .misuse then stderr.putStrLn usage
  for line in exit.stderr do stderr.putStrLn line
  for line in exit.stdout do IO.println line
  return UInt32.ofNat exit.status

end FlatMemory.Program

def main (args : List String) : IO UInt32 :=
  FlatMemory.Program.run args
