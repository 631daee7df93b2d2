import CommandShell.Fault
import CommandShell.Path

/-!
# The environment

Variables of the environment choose colours and may stand in the path of a settings
file, as `$NAME` or `${NAME}`.  A path that starts with a tilde starts at home, or at
the home of the account that is named after the tilde.  The environment also tells where
the program keeps its own files.

## Main definitions

* `Environment` — the variables and the accounts.
* `Environment.expand` — a text with the variables in it replaced.
* `Environment.expandHome` — a path with its tilde replaced.
* `Environment.findLocations` — where the program keeps its files.
-/

namespace CommandShell

/-- The accounts that a system comes with, and their home directories. -/
def standardAccounts : List (String × String) :=
  [("root", "/root"), ("daemon", "/usr/sbin"), ("bin", "/bin"), ("sys", "/dev"),
    ("sync", "/bin"), ("games", "/usr/games"), ("man", "/var/cache/man"),
    ("lp", "/var/spool/lpd"), ("mail", "/var/mail"), ("news", "/var/spool/news"),
    ("uucp", "/var/spool/uucp"), ("proxy", "/bin"), ("www-data", "/var/www"),
    ("backup", "/var/backups"), ("list", "/var/list"), ("irc", "/run/ircd"),
    ("_apt", "/nonexistent"), ("nobody", "/nonexistent")]

/-- Where the program keeps its files, unless it is told otherwise. -/
structure Locations where
  /-- The settings file. -/
  settingsFile : String := "/root/.config/cmdnest/config.toml"
  /-- The history of the lines that were entered. -/
  historyFile : String := "/root/.local/state/cmdnest/history"
deriving DecidableEq, Repr

/-- The variables of the environment, and the accounts of the system. -/
structure Environment where
  /-- The variables with their values. -/
  bindings : List (String × String) := []
  /-- The accounts with their home directories. -/
  accounts : List (String × String) := standardAccounts
  /-- The account that the shell runs under. -/
  account : String := "root"
  /-- Where the program keeps its files: this is found out once, when it is loaded. -/
  locations : Locations := {}
deriving DecidableEq, Repr

namespace Environment

/-- The value of a variable. -/
def get? (env : Environment) (name : String) : Option String :=
  (env.bindings.find? (·.1 == name)).map (·.2)

/-- The variable is there and not empty. -/
def isSet (env : Environment) (name : String) : Bool :=
  match env.get? name with
  | some value => !value.isEmpty
  | none => false

/-- Gives a variable a value, or takes it away. -/
def set (env : Environment) (name : String) (value : Option String) : Environment :=
  let others := env.bindings.filter (·.1 != name)
  { env with
    bindings := match value with
      | some v => (name, v) :: others
      | none => others }

/-- The characters that a name without braces may have. -/
def isNameChar (c : Char) : Bool :=
  c.isAlphanum || c == '_'

/-- The name of a variable that is referred to after a dollar sign, and what follows the
reference: a name as long as it goes, or any text between braces. -/
def reference? (cs : List Char) : Option (List Char × List Char) :=
  match cs with
  | '\x7b' :: body =>
    match body.dropWhile (· != '\x7d') with
    | [] => none
    | _ :: after => some (body.takeWhile (· != '\x7d'), after)
  | _ =>
    if (cs.takeWhile isNameChar).isEmpty then none
    else some (cs.takeWhile isNameChar, cs.dropWhile isNameChar)

/-- What follows a reference is no longer than what followed the dollar sign. -/
theorem length_le_of_reference? {cs name after : List Char}
    (h : reference? cs = some (name, after)) : after.length ≤ cs.length := by
  unfold reference? at h
  split at h
  · rename_i body
    have := (List.dropWhile_sublist (l := body) (· != '\x7d')).length_le
    split at h <;> simp_all
    omega
  · have := (List.dropWhile_sublist (l := cs) isNameChar).length_le
    split at h <;> simp_all

/-- A piece of a text. -/
inductive Piece where
  /-- A character that stands for itself. -/
  | plain (c : Char)
  /-- A reference to a variable, with the way it is written. -/
  | reference (name : String) (written : List Char)
deriving DecidableEq, Repr

/-- The pieces of a text, from left to right. -/
def pieces : List Char → List Piece
  | [] => []
  | c :: rest =>
    if c = '$' then
      match h : reference? rest with
      | none => .plain c :: pieces rest
      | some (name, after) =>
        have := length_le_of_reference? h
        .reference (String.ofList name) (c :: rest.take (rest.length - after.length))
          :: pieces after
    else .plain c :: pieces rest
termination_by cs => cs.length

/-- A piece with its variable replaced; one without a value stays as it is written. -/
def expandPiece (env : Environment) : Piece → List Char
  | .plain c => [c]
  | .reference name written =>
    match env.get? name with
    | some value => value.toList
    | none => written

/-- A text with the variables in it replaced; what replaces one is not looked at again. -/
def expand (env : Environment) (text : String) : String :=
  String.ofList ((pieces text.toList).flatMap env.expandPiece)

/-- The variables that a text refers to. -/
def referredTo (text : String) : List String :=
  (pieces text.toList).filterMap fun
    | .plain _ => none
    | .reference name _ => some name

/-! ## Homes -/

/-- The home directory of an account. -/
def homeOf? (env : Environment) (account : String) : Option String :=
  (env.accounts.find? (·.1 == account)).map (·.2)

/-- The home directory that a tilde with a name means, without slashes at its end.
Without a name it is the own one, which a variable may tell. -/
def home? (env : Environment) (name : String) : Option String :=
  let given :=
    if name.isEmpty then (env.get? "HOME").or (env.homeOf? env.account) else env.homeOf? name
  given.map fun path =>
    let trimmed := String.ofList (path.toList.reverse.dropWhile (· == '/')).reverse
    if trimmed.isEmpty then "/" else trimmed

/-- A path whose first part starts with a tilde, with a home directory in its place.  A
home that starts with a tilde itself is none. -/
def expandHome (env : Environment) (path : String) : Except Fault String :=
  match Path.isAbsolute path, Path.parts path with
  | false, first :: rest =>
    match first.toList with
    | '~' :: name =>
      if name.contains (Char.ofNat 0) then .error .nulInPath
      else
        match env.home? (String.ofList name) with
        | none => .error .noHome
        | some home =>
          if home.toList.head? = some '~' then .error .noHome
          else .ok (Path.ofParts (Path.root home) (Path.parts home ++ rest))
    | _ => .ok path
  | _, _ => .ok path

/-- The directory that a variable tells, or the one of these names below home. -/
def baseDirectory (env : Environment) (name : String) (below : List String) :
    Except Fault String :=
  match (env.get? name).filter (!·.isEmpty) with
  | some path => .ok path
  | none => (env.expandHome "~").map (Path.below · below)

/-- Where the program keeps its files in this environment. -/
def findLocations (env : Environment) : Except Fault Locations := do
  let settings ← env.baseDirectory "XDG_CONFIG_HOME" [".config"]
  let state ← env.baseDirectory "XDG_STATE_HOME" [".local", "state"]
  return ⟨Path.below settings ["cmdnest", "config.toml"], Path.below state ["cmdnest", "history"]⟩

/-- The accounts that a text lists, one on a line: the fields of a line are divided by
colons, the first is the name and the sixth is the home directory. -/
def accountsIn (text : String) : List (String × String) :=
  (text.splitOn "\n").filterMap fun line =>
    match line.splitOn ":" with
    | name :: _ :: _ :: _ :: _ :: home :: _ => some (name, home)
    | _ => none

end Environment

end CommandShell
