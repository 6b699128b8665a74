/-!
# Requests on the command line

The words of a command line are read from the left to the right, and the first word
that decides what is to happen does so.
-/

namespace FlatMemory

/-- What is asked for on a command line. -/
inductive Request
  | list (path level : String)
  | version
  | help
  | misuse
  deriving DecidableEq, Repr

/-- What a word is while options are still read. -/
inductive Word
  /-- All words after this one are paths. -/
  | endOfOptions
  /-- The log level, in the same word or else in the next. -/
  | level (value : Option String)
  | version
  | help
  | path (text : String)
  | unknown
  deriving DecidableEq, Repr

/-- A word that begins with a dash is an option, but a dash alone is a path. -/
def Word.isOption (text : String) : Bool :=
  match text.toList with
  | '-' :: _ :: _ => true
  | _ => false

/-- What comes before a log level in the same word. -/
def Word.levelMark : String := "--log-level="

/-- What a word is on its own.  Short options can stand together behind one dash, and
the first of them decides. -/
def Word.ofString (text : String) : Word :=
  if !isOption text then .path text
  else
    match text with
    | "--" => .endOfOptions
    | "--version" => .version
    | "--help" => .help
    | "--log-level" => .level none
    | _ =>
      match text.toList with
      | '-' :: 'V' :: _ => .version
      | '-' :: 'h' :: _ => .help
      | _ =>
        if levelMark.toList.isPrefixOf text.toList then
          .level (some (String.ofList (text.toList.drop levelMark.length)))
        else .unknown

/-- What the words read so far have set. -/
structure Draft where
  path : Option String
  level : Option String
  deriving DecidableEq, Repr

namespace Draft

def setPath (d : Draft) (path : String) : Option Draft :=
  if d.path.isSome || path == "" then none else some { d with path := some path }

def setLevel (d : Draft) (level : String) : Option Draft :=
  if d.level.isSome then none else some { d with level := some level }

def defaultLevel : String := "warn"

/-- At the end of the words, a file has to be set. -/
def finish (d : Draft) : Request :=
  match d.path with
  | some path => .list path (d.level.getD defaultLevel)
  | none => .misuse

def readPaths (d : Draft) : List String → Request
  | [] => d.finish
  | path :: rest =>
    match d.setPath path with
    | some d => d.readPaths rest
    | none => .misuse

/-- Words among which there are options. -/
def read (d : Draft) : List String → Request
  | [] => d.finish
  | text :: rest =>
    match Word.ofString text, rest with
    | .endOfOptions, rest => d.readPaths rest
    | .version, _ => .version
    | .help, _ => .help
    | .unknown, _ => .misuse
    | .path path, rest =>
      match d.setPath path with
      | some d => d.read rest
      | none => .misuse
    | .level (some value), rest =>
      match d.setLevel value with
      | some d => d.read rest
      | none => .misuse
    | .level none, [] => .misuse
    | .level none, value :: rest =>
      if Word.isOption value then .misuse
      else
        match d.setLevel value with
        | some d => d.read rest
        | none => .misuse

end Draft

def Request.ofArgs (args : List String) : Request :=
  (Draft.mk none none).read args

end FlatMemory
