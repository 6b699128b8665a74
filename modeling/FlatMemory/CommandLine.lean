import FlatMemory.CommandLine.Request
import FlatMemory.Log.Filter
import FlatMemory.Process

/-!
# The command line

The program as it is called: with words that are texts, a log filter made of directives, and a
line for each event that the filter lets through.
-/

namespace FlatMemory.CommandLine

universe u

variable {σ : Type u}

def version : String := "tiny-vm 0.1.0"

/-- What the words of a command line lead to.  The texts that explain the usage are not part of
the exit. -/
def parse (words : List String) : Except Exit (Process.Args String) :=
  match Request.ofArgs words with
  | .list path level => .ok ⟨path, level⟩
  | .version => .error ⟨0, Console.blank.print version⟩
  | .help => .error ⟨0, .blank⟩
  | .misuse => .error ⟨2, .blank⟩

/-- The log of the program.  The time at which an event was shown is not part of its line. -/
def logging : Logging String Filter where
  parse? := Filter.parse?
  ofLevel := Filter.parseKnown
  complaints := Filter.complaints
  record f e c := if f.allows e then c.note [.event e e.targetLine] else c

/-- Runs the program on the words of a command line, with the log filter of the environment, if
there is one. -/
def run [Source σ] (openFile : String → Except IoError σ) (environment : Option String)
    (words : List String) : Exit :=
  Process.main parse logging openFile environment words

end FlatMemory.CommandLine
