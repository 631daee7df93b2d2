import CommandShell.Text.Quoted

/-!
# Causes of failure

Everything that can go wrong while a line runs is one of these causes.  A handler
may fail in any ordinary way; the dispatcher then logs the cause and answers with a
status.  It names the command by the words that the handler was given, so where a
handler has taken all of these away, the dispatch itself fails.  One cause is not
ordinary: an abort ends the whole run and passes through every dispatcher on its way.

## Main definitions

* `FileTrouble`, `FileFault` — what the file system refuses.
* `Fault` — the causes.
* `Fault.kind`, `Fault.message` — how a cause is reported.
* `Fault.isAbort`, `Fault.isFileTrouble` — the two classes that callers tell apart.
-/

namespace CommandShell

/-- What the file system has against a path. -/
structure FileTrouble where
  /-- The number under which the system reports the trouble. -/
  code : Nat
  /-- The trouble in words. -/
  words : String
deriving DecidableEq, Repr

namespace FileTrouble

/-- Nothing is there. -/
def notFound : FileTrouble := ⟨2, "No such file or directory"⟩

/-- Something is there already. -/
def taken : FileTrouble := ⟨17, "File exists"⟩

/-- A part of the path that must be a directory is none. -/
def notDirectory : FileTrouble := ⟨20, "Not a directory"⟩

/-- A directory is where a file should be. -/
def isDirectory : FileTrouble := ⟨21, "Is a directory"⟩

/-- A name, or the whole path, is too long. -/
def nameTooLong : FileTrouble := ⟨36, "File name too long"⟩

/-- The kinds under which some troubles are reported, by their numbers. -/
def kinds : List (Nat × String) :=
  [(1, "PermissionError"), (2, "FileNotFoundError"), (3, "ProcessLookupError"),
    (4, "InterruptedError"), (10, "ChildProcessError"), (11, "BlockingIOError"),
    (13, "PermissionError"), (17, "FileExistsError"), (20, "NotADirectoryError"),
    (21, "IsADirectoryError"), (32, "BrokenPipeError"), (103, "ConnectionAbortedError"),
    (104, "ConnectionResetError"), (108, "BrokenPipeError"), (110, "TimeoutError"),
    (111, "ConnectionRefusedError"), (114, "BlockingIOError"), (115, "BlockingIOError")]

/-- The kind under which the trouble is reported. -/
def kind (t : FileTrouble) : String :=
  ((kinds.find? (·.1 == t.code)).map (·.2)).getD "OSError"

/-- The trouble counts as if nothing were there: a name that leads nowhere, a file in place of a
directory, a file that is not open, links that lead in a circle. -/
def isAbsence (t : FileTrouble) : Bool :=
  [2, 9, 20, 40].contains t.code

end FileTrouble

/-- A trouble together with the path that met it. -/
structure FileFault where
  /-- What is wrong. -/
  trouble : FileTrouble
  /-- The path, as it was given; none if the file was open already. -/
  path? : Option String
deriving DecidableEq, Repr

/-- A file fault in words. -/
def FileFault.message (f : FileFault) : String :=
  "[Errno " ++ toString f.trouble.code ++ "] " ++ f.trouble.words
    ++ (f.path?.map (": " ++ Text.quoted ·)).getD ""

/-- The ordinary ways in which a handler of the application may fail. -/
inductive Failure where
  /-- Something went wrong while it ran. -/
  | runtime
  /-- A value was not as expected. -/
  | value
  /-- The system refused something. -/
  | system
deriving DecidableEq, Repr

/-- The kind under which a handler's failure is reported. -/
def Failure.kind : Failure → String
  | runtime => "RuntimeError"
  | value => "ValueError"
  | system => "OSError"

/-- A cause of failure. -/
inductive Fault where
  /-- The run is given up; the reason was logged before. -/
  | abort (message : String)
  /-- A handler failed. -/
  | failed (failure : Failure) (message : String)
  /-- A file could not be used. -/
  | file (fault : FileFault)
  /-- A path holds the character NUL. -/
  | nulInPath
  /-- A settings file is not UTF-8. -/
  | undecodable
  /-- An integer has too many decimal digits to be read. -/
  | digitLimit (digits : Nat)
  /-- An integer has too many decimal digits to be shown. -/
  | unshowable
  /-- An infinite number has no integer part. -/
  | infinite
  /-- A command, shown here, is not in the registry that should hold it. -/
  | notRegistered (command : String)
  /-- A name was never given a meaning. -/
  | unknownName (name : String)
  /-- There is no delimiter to end a completed word with. -/
  | noDelimiter
  /-- A value of this kind has no order. -/
  | unordered (kind : String)
  /-- The home directory is not known. -/
  | noHome
  /-- Handlers called one another too deeply without a dispatch between them. -/
  | tooManyCalls
  /-- The words that a handler was given are gone, and one of them is needed. -/
  | noWords
  /-- A value of this kind does not offer what is asked of it. -/
  | lacking (kind feature : String)
deriving DecidableEq, Repr

namespace Fault

/-- The kind under which a cause is reported. -/
def kind : Fault → String
  | abort _ => "CmdNestError"
  | failed failure _ => failure.kind
  | file fault => fault.trouble.kind
  | nulInPath => "ValueError"
  | undecodable => "UnicodeDecodeError"
  | digitLimit _ => "ValueError"
  | unshowable => "ValueError"
  | infinite => "OverflowError"
  | notRegistered _ => "ValueError"
  | unknownName _ => "KeyError"
  | noDelimiter => "IndexError"
  | unordered _ => "TypeError"
  | noHome => "RuntimeError"
  | tooManyCalls => "RecursionError"
  | noWords => "IndexError"
  | lacking .. => "AttributeError"

/-- A cause in words. -/
def message : Fault → String
  | abort message => message
  | failed _ message => message
  | file fault => fault.message
  | nulInPath => "embedded null byte"
  | undecodable => ""
  | digitLimit digits =>
    "Exceeds the limit (4300 digits) for integer string conversion: value has "
      ++ toString digits
      ++ " digits; use sys.set_int_max_str_digits() to increase the limit"
  | unshowable =>
    "Exceeds the limit (4300 digits) for integer string conversion; "
      ++ "use sys.set_int_max_str_digits() to increase the limit"
  | infinite => "cannot convert float infinity to integer"
  | notRegistered command => command
  | unknownName name => Text.quoted name
  | noDelimiter => "string index out of range"
  | unordered kind =>
    "'>' not supported between instances of " ++ Text.quoted kind ++ " and 'int'"
  | noHome => "Could not determine home directory."
  | tooManyCalls => "maximum recursion depth exceeded"
  | noWords => "list index out of range"
  | lacking kind feature =>
    Text.quoted kind ++ " object has no attribute " ++ Text.quoted feature

/-- The cause ends the run: no dispatcher turns it into a status. -/
def isAbort : Fault → Bool
  | abort _ => true
  | _ => false

/-- The cause comes from the system, as far as callers that only expect such causes
can tell. -/
def isFileTrouble : Fault → Bool
  | file _ => true
  | failed .system _ => true
  | _ => false

end Fault

end CommandShell
