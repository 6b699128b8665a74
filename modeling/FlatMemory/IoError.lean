/-!
# Input and output errors

Reading from the outside world fails for reasons that have nothing to do with
memory.  A failure has a *kind*, which decides whether it is worth another try,
and a text, which is shown to people.

## Main definitions

* `IoError.Kind` — the kinds, with the text of a failure that says no more.
* `Errno` — the numbered failures of the operating system.
* `IoError` — a bare kind, a kind with a text of its own, or a numbered failure.
* `IoError.isInterrupted` — the failures after which the same read is tried again.
-/

namespace FlatMemory

/-- What kind of thing went wrong. -/
inductive IoError.Kind
  | notFound
  | permissionDenied
  | connectionRefused
  | connectionReset
  | connectionAborted
  | notConnected
  | addrInUse
  | addrNotAvailable
  | brokenPipe
  | alreadyExists
  | wouldBlock
  | invalidInput
  | invalidData
  | timedOut
  | writeZero
  | interrupted
  | unsupported
  | unexpectedEof
  | outOfMemory
  | other
  | inputOutput
  | notADirectory
  | isADirectory
  | storageFull
  | invalidFilename
  | filesystemLoop
  | uncategorized
  deriving DecidableEq, Repr, Inhabited

def IoError.Kind.text : IoError.Kind → String
  | .notFound => "entity not found"
  | .permissionDenied => "permission denied"
  | .connectionRefused => "connection refused"
  | .connectionReset => "connection reset"
  | .connectionAborted => "connection aborted"
  | .notConnected => "not connected"
  | .addrInUse => "address in use"
  | .addrNotAvailable => "address not available"
  | .brokenPipe => "broken pipe"
  | .alreadyExists => "entity already exists"
  | .wouldBlock => "operation would block"
  | .invalidInput => "invalid input parameter"
  | .invalidData => "invalid data"
  | .timedOut => "timed out"
  | .writeZero => "write zero"
  | .interrupted => "operation interrupted"
  | .unsupported => "unsupported"
  | .unexpectedEof => "unexpected end of file"
  | .outOfMemory => "out of memory"
  | .other => "other error"
  | .inputOutput => "input/output error"
  | .notADirectory => "not a directory"
  | .isADirectory => "is a directory"
  | .storageFull => "no storage space"
  | .invalidFilename => "invalid filename"
  | .filesystemLoop => "filesystem loop or indirection limit (e.g. symlink loop)"
  | .uncategorized => "uncategorized error"

/-! ### Numbered failures -/

/-- A failure that the operating system reports by number. -/
inductive Errno
  | notPermitted
  | noEntry
  | interrupted
  | inputOutput
  | badDescriptor
  | tryAgain
  | accessDenied
  | notDirectory
  | isDirectory
  | noSpace
  | brokenPipe
  | nameTooLong
  | tooManyLinks
  deriving DecidableEq, Repr, Inhabited

namespace Errno

/-- Every numbered failure, in the order of the numbers. -/
def all : List Errno :=
  [notPermitted, noEntry, interrupted, inputOutput, badDescriptor, tryAgain, accessDenied,
    notDirectory, isDirectory, noSpace, brokenPipe, nameTooLong, tooManyLinks]

def code : Errno → Nat
  | notPermitted => 1
  | noEntry => 2
  | interrupted => 4
  | inputOutput => 5
  | badDescriptor => 9
  | tryAgain => 11
  | accessDenied => 13
  | notDirectory => 20
  | isDirectory => 21
  | noSpace => 28
  | brokenPipe => 32
  | nameTooLong => 36
  | tooManyLinks => 40

def ofCode? (n : Nat) : Option Errno :=
  all.find? fun e => e.code == n

def meaning : Errno → String
  | notPermitted => "Operation not permitted"
  | noEntry => "No such file or directory"
  | interrupted => "Interrupted system call"
  | inputOutput => "Input/output error"
  | badDescriptor => "Bad file descriptor"
  | tryAgain => "Resource temporarily unavailable"
  | accessDenied => "Permission denied"
  | notDirectory => "Not a directory"
  | isDirectory => "Is a directory"
  | noSpace => "No space left on device"
  | brokenPipe => "Broken pipe"
  | nameTooLong => "File name too long"
  | tooManyLinks => "Too many levels of symbolic links"

def kind : Errno → IoError.Kind
  | notPermitted => .permissionDenied
  | noEntry => .notFound
  | interrupted => .interrupted
  | inputOutput => .inputOutput
  | badDescriptor => .uncategorized
  | tryAgain => .wouldBlock
  | accessDenied => .permissionDenied
  | notDirectory => .notADirectory
  | isDirectory => .isADirectory
  | noSpace => .storageFull
  | brokenPipe => .brokenPipe
  | nameTooLong => .invalidFilename
  | tooManyLinks => .filesystemLoop

def text (e : Errno) : String :=
  e.meaning ++ " (os error " ++ toString e.code ++ ")"

/-- Numbers and failures determine each other. -/
theorem ofCode?_code (e : Errno) : ofCode? e.code = some e := by
  cases e <;> rfl

end Errno

/-! ### Failures of any origin -/

/-- A failed input or output operation. -/
inductive IoError
  | plain (kind : IoError.Kind)
  /-- The failure brings its own text, shown unchanged. -/
  | custom (kind : IoError.Kind) (text : String)
  | os (errno : Errno)
  deriving DecidableEq, Repr, Inhabited

namespace IoError

def kind : IoError → Kind
  | plain k => k
  | custom k _ => k
  | os e => e.kind

def text : IoError → String
  | plain k => k.text
  | custom _ t => t
  | os e => e.text

/-- An interrupted operation did nothing and may be tried again. -/
def isInterrupted (e : IoError) : Bool :=
  e.kind == .interrupted

end IoError

end FlatMemory
