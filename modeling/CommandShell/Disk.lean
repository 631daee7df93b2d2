import CommandShell.Fault
import CommandShell.Path
import CommandShell.Text.Octets

/-!
# Files

Scripts and settings are read from files, log records are appended to one, and the
directory of the history file is made if need be.  The disk is what these operations
see of the file system: regular files with their octets, directories, and devices that
hold nothing.

A path is walked part by part, so that a missing directory, a file in place of one and
a name that is too long are each met where the system would meet them.  The system may
also refuse what is asked of it, for want of a permission or because a device fails; what
it refuses where, and which files cannot be read to their end, is part of the disk.

## Main definitions

* `Disk` — files and directories by their place, with what the system refuses.
* `Disk.locate` — the place that a path names.
* `Disk.openForReading`, `Disk.stream`, `Disk.read` — reading a file.
* `Disk.exists?`, `Disk.isDirectory` — looking.
* `Disk.openForAppend`, `Disk.appendTo`, `Disk.makeDirectories` — changing.
-/

namespace CommandShell

/-- What is at a place. -/
inductive Entry where
  /-- A regular file. -/
  | file (octets : List UInt8)
  /-- A directory. -/
  | directory
  /-- A device that swallows what is written to it and has nothing to read. -/
  | void
deriving DecidableEq, Repr

/-- The names that lead to a place from the top of the file system. -/
abbrev Place := List String

/-- What may be asked of the system at a place. -/
inductive Access where
  /-- To tell what is there. -/
  | examine
  /-- To go on from a directory to something in it. -/
  | enter
  /-- To read a file. -/
  | read
  /-- To write to one. -/
  | write
  /-- To make something new in a directory. -/
  | add
deriving DecidableEq, Repr

/-- Something that the system refuses. -/
structure Refusal where
  /-- Where it refuses something. -/
  place : Place
  /-- What it refuses there. -/
  access : Access
  /-- What it reports then. -/
  trouble : FileTrouble
deriving DecidableEq, Repr

/-- A file that cannot be read to its end. -/
structure Flaw where
  /-- Where the file is. -/
  place : Place
  /-- How many octets can be read before. -/
  after : Nat
  /-- What the system reports then. -/
  trouble : FileTrouble
deriving DecidableEq, Repr

/-- The file system, as far as it is known. -/
structure Disk where
  /-- The working directory. -/
  cwd : Place := []
  /-- What is where; a place that is not listed is empty, unless the working directory
  is below it. -/
  entries : List (Place × Entry) := []
  /-- What the system refuses; of several refusals of the same the first counts. -/
  refusals : List Refusal := []
  /-- The files that cannot be read to their end; of several flaws of one the first counts. -/
  flaws : List Flaw := []
deriving DecidableEq, Repr

namespace Disk

/-- The length that a name may have in octets. -/
def nameLimit : Nat := 255

/-- The length that a path may have in octets. -/
def pathLimit : Nat := 4095

/-- What is at a place. -/
def look (d : Disk) (place : Place) : Option Entry :=
  if place.isPrefixOf d.cwd then some .directory
  else (d.entries.find? (·.1 == place)).map (·.2)

/-- Puts something at a place. -/
def put (d : Disk) (place : Place) (entry : Entry) : Disk :=
  { d with entries := (place, entry) :: d.entries.filter (·.1 != place) }

/-- Asks the system for something at a place. -/
def grant (d : Disk) (place : Place) (access : Access) : Except FileTrouble Unit :=
  match d.refusals.find? fun r => r.place == place && r.access == access with
  | none => .ok ()
  | some refusal => .error refusal.trouble

/-- What is at a place, if the system tells. -/
def inspect (d : Disk) (place : Place) : Except FileTrouble (Option Entry) :=
  (d.grant place .examine).map fun () => d.look place

/-- The path of the working directory. -/
def cwdPath (d : Disk) : String :=
  "/" ++ "/".intercalate d.cwd

/-- Follows names from a place.  Every place that is left must be a directory that may be
entered; what is at the last one is not looked at. -/
def walk (d : Disk) (place : Place) : List String → Except FileTrouble Place
  | [] => .ok place
  | name :: rest =>
    match d.inspect place with
    | .error trouble => .error trouble
    | .ok none => .error .notFound
    | .ok (some (.file _)) | .ok (some .void) => .error .notDirectory
    | .ok (some .directory) =>
      match d.grant place .enter with
      | .error trouble => .error trouble
      | .ok () =>
        if name = ".." then walk d place.dropLast rest
        else if nameLimit < name.utf8ByteSize then .error .nameTooLong
        else walk d (place ++ [name]) rest

/-- The place that a path names. -/
def locate (d : Disk) (path : String) : Except FileTrouble Place :=
  if pathLimit < path.utf8ByteSize then .error .nameTooLong
  else d.walk (if Path.isAbsolute path then [] else d.cwd) (Path.parts path)

/-- The path holds no NUL, so that it can be handed to the system at all. -/
def admissible (path : String) : Bool :=
  !path.toList.contains (Char.ofNat 0)

/-- Runs an operation of the system on a path that it admits. -/
def onPath {α : Type} (path : String) (operation : Except FileTrouble α) : Except Fault α :=
  if admissible path then operation.mapError fun trouble => .file ⟨trouble, some path⟩
  else .error .nulInPath

theorem isAbort_onPath {α : Type} {path : String} {operation : Except FileTrouble α} {fault : Fault}
    (h : onPath path operation = .error fault) : fault.isAbort = false := by
  rw [onPath] at h
  split at h
  · cases operation with
    | ok a => cases h
    | error trouble =>
      cases h
      rfl
  · cases h
    rfl

theorem isFileTrouble_onPath {α : Type} {path : String} {operation : Except FileTrouble α}
    {fault : Fault} (hpath : admissible path = true) (h : onPath path operation = .error fault) :
    fault.isFileTrouble = true := by
  rw [onPath, if_pos hpath] at h
  cases operation with
  | ok a => cases h
  | error trouble =>
    cases h
    rfl

/-- The octets at a place; only a file has any. -/
def contents (d : Disk) (place : Place) : List UInt8 :=
  match d.look place with
  | some (.file octets) => octets
  | _ => []

/-- The place that a path names, with what is there. -/
def seek (d : Disk) (path : String) : Except FileTrouble (Place × Option Entry) := do
  let place ← d.locate path
  return (place, ← d.inspect place)

/-- Opens a file to read it. -/
def openForReading (d : Disk) (path : String) : Except Fault Place :=
  onPath path do
    match ← d.seek path with
    | (_, none) => throw .notFound
    | (place, some entry) =>
      d.grant place .read
      if entry = .directory then throw .isDirectory
      return place

/-- The octets of a file that can be read, and what keeps the others from it, if anything. -/
def stream (d : Disk) (place : Place) : List UInt8 × Option FileTrouble :=
  match d.flaws.find? fun f => f.place == place && f.after ≤ (d.contents place).length with
  | none => (d.contents place, none)
  | some flaw => ((d.contents place).take flaw.after, some flaw.trouble)

/-- The octets of a file. -/
def read (d : Disk) (path : String) : Except Fault (List UInt8) :=
  match d.openForReading path with
  | .error fault => .error fault
  | .ok place =>
    match d.stream place with
    | (octets, none) => .ok octets
    | (_, some trouble) => .error (.file ⟨trouble, none⟩)

/-- Something is at the path.  Troubles that do not mean that nothing is there are errors. -/
def exists? (d : Disk) (path : String) : Except Fault Bool :=
  if admissible path then
    match d.seek path with
    | .ok (_, entry) => .ok entry.isSome
    | .error trouble =>
      if trouble.isAbsence then .ok false else .error (.file ⟨trouble, some path⟩)
  else .ok false

/-- A directory is at the path. -/
def isDirectory (d : Disk) (path : String) : Except FileTrouble Bool :=
  match d.seek path with
  | .ok (_, entry) => .ok (entry == some .directory)
  | .error trouble => if trouble.isAbsence then .ok false else .error trouble

/-- Makes something new at a place that is empty. -/
def create (d : Disk) (place : Place) (entry : Entry) : Except FileTrouble Disk :=
  (d.grant place.dropLast .add).map fun () => d.put place entry

/-- Opens a file to append to it; it is made if nothing is there. -/
def openForAppend (d : Disk) (path : String) : Except Fault (Place × Disk) :=
  onPath path do
    match ← d.seek path with
    | (place, none) => return (place, ← d.create place (.file []))
    | (_, some .directory) => throw .isDirectory
    | (place, some _) =>
      d.grant place .write
      return (place, d)

/-- Appends a text to an open file. -/
def appendTo (d : Disk) (place : Place) (text : String) : Disk :=
  match d.look place with
  | some (.file octets) => d.put place (.file (octets ++ Text.encode text))
  | _ => d

/-- Makes one directory. -/
def makeDirectory (d : Disk) (path : String) : Except FileTrouble Disk := do
  match ← d.seek path with
  | (_, some _) => throw .taken
  | (place, none) => d.create place .directory

/-- Makes a directory if none is there. -/
def ensureDirectory (d : Disk) (path : String) : Except FileTrouble Disk :=
  match d.makeDirectory path with
  | .ok d => .ok d
  | .error trouble => do
    if ← d.isDirectory path then return d else throw trouble

/-- Makes a directory if none is there; where this fails, nothing changes. -/
def makeLast (d : Disk) (path : String) : Except Fault Unit × Disk :=
  match onPath path (d.ensureDirectory path) with
  | .ok d => (.ok (), d)
  | .error fault => (.error fault, d)

/-- Makes a directory if none is there, and those that lead to it; `levels` bounds how
many of them are tried. -/
def makeDirectoriesWithin : Nat → Disk → String → Except Fault Unit × Disk
  | 0, d, path => d.makeLast path
  | levels + 1, d, path =>
    match d.makeDirectory path with
    | .ok _ => d.makeLast path
    | .error trouble =>
      if trouble.code ≠ FileTrouble.notFound.code then d.makeLast path
      else if Path.parent path = path then (onPath path (.error trouble), d)
      else
        match makeDirectoriesWithin levels d (Path.parent path) with
        | (.ok (), d) => d.makeLast path
        | (.error fault, d) => (.error fault, d)

/-- Makes a directory if none is there, and those that lead to it.  Where one of them
cannot be made, those before it stay. -/
def makeDirectories (d : Disk) (path : String) : Except Fault Unit × Disk :=
  if admissible path then makeDirectoriesWithin (Path.parts path).length d path
  else (.error .nulInPath, d)

end Disk

end CommandShell
