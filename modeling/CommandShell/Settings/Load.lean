import CommandShell.Disk
import CommandShell.Document
import CommandShell.Environment
import CommandShell.Settings
import CommandShell.Settings.Validation

/-!
# Loading settings

Settings come from a table of a settings file.  A file that the user names must be
there; the default one need not.  Values that do not pass validation are dropped, each
with a note, so that the schema's value takes their place.
-/

namespace CommandShell.Settings

/-- The name of the table that holds the settings. -/
def sectionName : String := "cmdnest"

/-- Settings with the problems that were found. -/
structure Loaded where
  /-- The settings. -/
  settings : Settings
  /-- The problems, in words. -/
  errors : List String := []

/-- Gives the run up, after a note that tells why. -/
def giveUp {α : Type} (channel message : String) : Noted (Except Fault α) := do
  Noted.say channel Level.critical message
  return .error (.abort "")

/-- Makes the same kind of note for several messages. -/
def sayAll (channel : String) (level : Int) (messages : List String) : Noted Unit :=
  ⟨(), messages.map fun message => ⟨channel, level, message, none⟩⟩

/-- The values of a table that passed validation. -/
def accepted (t : Table) (v : Validation) : Table :=
  t.filter fun e => !v.invalid.contains e.1

/-- The settings of a table under a schema. -/
def ofSection (channel : String) (schema : Schema) (t : Table) : Noted (Except Fault Loaded) := do
  match validate sectionName t schema with
  | .error fault => return .error fault
  | .ok validation =>
    sayAll channel Level.error validation.errors
    sayAll channel Level.warning (unknownNames sectionName t schema)
    return .ok ⟨ofTable (accepted t validation) schema, validation.errors⟩

/-- The settings of a document that was read. -/
def ofDocument (channel : String) (schema : Schema) (document : Table) :
    Noted (Except Fault Loaded) :=
  match document.get? sectionName with
  | none => ofSection channel schema []
  | some (.table t) => ofSection channel schema t
  | some _ => giveUp channel ("[" ++ sectionName ++ "] must be a table")

/-- The settings that the octets of a file hold. -/
def ofOctets (channel : String) (schema : Schema) (path : String) (octets : List UInt8) :
    Noted (Except Fault Loaded) :=
  match Text.decodeStrict? octets with
  | none => return .error .undecodable
  | some text =>
    match Document.read text with
    | .ok document => ofDocument channel schema document
    | .error .malformed => giveUp channel ("Problem reading " ++ path ++ ": TOML")
    | .error (.tooManyDigits digits) => return .error (.digitLimit digits)

/-- The settings of a file that is there. -/
def ofFile (channel : String) (schema : Schema) (disk : Disk) (path : String) :
    Noted (Except Fault Loaded) := do
  Noted.say channel Level.info ("Loading " ++ path)
  match disk.read path with
  | .error fault => return .error fault
  | .ok octets => ofOctets channel schema path octets

/-- The path of the file that the user names: variables and the home directory are
filled in. -/
def expandPath (env : Environment) (path : String) : Except Fault String :=
  env.expandHome (Path.clean (env.expand path))

/-- The settings that there are, in an environment. -/
def schemaIn (env : Environment) : Schema := .shell env.locations.historyFile

/-- The settings of the file that the user names, which must be there. -/
def loadNamed (channel : String) (disk : Disk) (env : Environment) (path : String) :
    Noted (Except Fault Loaded) :=
  match expandPath env path with
  | .error fault => return .error fault
  | .ok path =>
    match disk.exists? path with
    | .error fault => return .error fault
    | .ok false => giveUp channel ("Config file not found: " ++ path)
    | .ok true => ofFile channel (schemaIn env) disk path

/-- The settings of the default file, if it is there. -/
def loadDefault (channel : String) (disk : Disk) (env : Environment) :
    Noted (Except Fault Loaded) :=
  let path := env.locations.settingsFile
  match disk.exists? path with
  | .error fault => return .error fault
  | .ok true => ofFile channel (schemaIn env) disk path
  | .ok false => do
    Noted.say channel Level.debug ("No config file at " ++ path ++ ", using defaults")
    ofDocument channel (schemaIn env) []

/-- The settings of a file; an empty path means the default one. -/
def load (channel : String) (disk : Disk) (env : Environment) (path : String) :
    Noted (Except Fault Loaded) :=
  if path.isEmpty then loadDefault channel disk env else loadNamed channel disk env path

end CommandShell.Settings
