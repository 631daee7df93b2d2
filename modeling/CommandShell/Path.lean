/-!
# Paths

Paths are texts whose parts are separated by slashes.  A path given by the user is
cleaned before use: empty parts and single dots go, double dots stay.  The path of a
log file is made absolute and double dots are resolved too.
-/

namespace CommandShell.Path

/-- Splits a text at every slash. -/
def splitSlashes (current : List Char) : List Char → List String
  | [] => [String.ofList current.reverse]
  | c :: rest =>
    if c = '/' then String.ofList current.reverse :: splitSlashes [] rest
    else splitSlashes (c :: current) rest

/-- The parts of a path, without empty ones and single dots. -/
def parts (path : String) : List String :=
  (splitSlashes [] path.toList).filter fun part => part != "" && part != "."

/-- The slashes that make a path absolute: one, or two if it starts with exactly two. -/
def root (path : String) : String :=
  match path.toList with
  | '/' :: '/' :: '/' :: _ => "/"
  | '/' :: '/' :: _ => "//"
  | '/' :: _ => "/"
  | _ => ""

/-- The path starts at the top of the file system. -/
def isAbsolute (path : String) : Bool :=
  root path != ""

/-- Puts a path together; the empty one is the working directory. -/
def ofParts (root : String) (parts : List String) : String :=
  let path := root ++ "/".intercalate parts
  if path.isEmpty then "." else path

/-- The path without empty parts, single dots and slashes at its end. -/
def clean (path : String) : String :=
  ofParts (root path) (parts path)

/-- What these names lead to below a path. -/
def below (path : String) (names : List String) : String :=
  ofParts (root path) (parts path ++ names)

/-- The directory that a path names something in. -/
def parent (path : String) : String :=
  ofParts (root path) (parts path).dropLast

/-- Resolves double dots by the names before them; those at the top go. -/
def resolveDots (resolved : List String) : List String → List String
  | [] => resolved.reverse
  | part :: rest =>
    if part = ".." then resolveDots resolved.tail rest
    else resolveDots (part :: resolved) rest

/-- The path from the top of the file system, seen from the working directory. -/
def absolute (cwd path : String) : String :=
  let full := if isAbsolute path then path else cwd ++ "/" ++ path
  ofParts (root full) (resolveDots [] (parts full))

end CommandShell.Path
