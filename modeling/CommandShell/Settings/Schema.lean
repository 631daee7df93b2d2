import CommandShell.Fault
import CommandShell.Journal.Level
import CommandShell.Value

/-!
# Schemas

A schema says which settings there are: the kinds of value that each admits, the value
it has if none is given, and what else is asked of a value.

## Main definitions

* `Kind` — the kinds of value that a field may admit.
* `Check` — further demands.
* `Field`, `Schema` — one setting, and all of them.
* `Schema.shell` — the settings of the shell.
-/

namespace CommandShell

/-- The kinds of value that a field may admit. -/
inductive Kind where
  /-- A text. -/
  | text
  /-- An integer. -/
  | integer
  /-- A truth value, or a word for one. -/
  | switch
  /-- A floating-point number. -/
  | number
  /-- A list. -/
  | list
  /-- A table. -/
  | table
deriving DecidableEq, Repr

namespace Kind

/-- The name of a kind in messages. -/
def name : Kind → String
  | text => "str"
  | integer => "int"
  | switch => "bool"
  | number => "float"
  | list => "list"
  | table => "dict"

/-- A value is of a kind.  A truth value is no integer; a word that switches something
on or off counts as a truth value. -/
def admits : Kind → Value → Bool
  | text, .text _ => true
  | integer, .int _ => true
  | switch, .bool _ => true
  | switch, .text s => (Value.onWords ++ Value.offWords).contains (Value.lower s)
  | number, .float _ => true
  | list, .list _ => true
  | table, .table _ => true
  | _, _ => false

end Kind

/-- What may be asked of a value besides its kind. -/
inductive Check where
  /-- It is greater than zero. -/
  | positive
  /-- It is not empty. -/
  | notEmpty
  /-- It is a level of the log. -/
  | logLevel
  /-- An application finds no problem with it. -/
  | custom (problems : Value → Except Fault (List String))

namespace Check

/-- A number is greater than zero. -/
def isPositive : Int ⊕ Float → Bool
  | .inl n => 0 < n
  | .inr x => (Exact.ofFloat x).isPositive

/-- What is wrong with a value.  A value that is no number cannot be compared with zero, and one
that cannot be shown can neither be complained about nor be read as a level. -/
def problems (v : Value) : Check → Except Fault (List String)
  | positive =>
    match v.number? with
    | none => .error (.unordered v.kind)
    | some x =>
      if isPositive x then .ok []
      else if v.isShowable then .ok ["must be greater than zero, got " ++ v.shown]
      else .error .unshowable
  | notEmpty => .ok (if v.truth then [] else ["must not be empty"])
  | logLevel =>
    if v.isShowable then
      .ok (if (Level.parse? v.shown).isSome then [] else ["unknown log level " ++ v.quoted])
    else .error .unshowable
  | custom problems => problems v

end Check

/-- One setting. -/
structure Field where
  /-- Its name. -/
  name : String
  /-- The kinds of value that it admits. -/
  kinds : List Kind := [.text]
  /-- The value that it has if none is given. -/
  fallback : Value := .null
  /-- What it is for. -/
  description : String := ""
  /-- The values that it admits, if these are listed. -/
  choices : Option (List Value) := none
  /-- What else is asked of its value. -/
  check : Option Check := none

/-- The kinds that a field admits, in words. -/
def Field.kindText (f : Field) : String :=
  " or ".intercalate (f.kinds.map Kind.name)

/-- The settings that there are, in order. -/
abbrev Schema := List Field

namespace Schema

/-- The field of a name. -/
def find? (schema : Schema) (name : String) : Option Field :=
  List.find? (·.name == name) schema

/-- The values of the fields that have one if none is given. -/
def fallbacks (schema : Schema) : Table :=
  schema.filterMap fun f =>
    match f.fallback with
    | .null => none
    | v => some (f.name, v)

/-- The characters that separate words unless others are set. -/
def defaultDelimiters : String := " \t\r\n"

/-- The settings of the shell, whose history is kept in the given file unless another is set. -/
def shell (historyFile : String) : Schema :=
  [{ name := "prompt", fallback := .text "> "
     description := "Prompt shown by the interactive loop" },
    { name := "delimiters", fallback := .text defaultDelimiters, check := some .notEmpty
      description := "Characters separating the words of a command line" },
    { name := "comment", fallback := .text "#", check := some .notEmpty
      description := "Words starting with this marker and the rest of the line are ignored" },
    { name := "max_depth", kinds := [.integer], fallback := .int 64, check := some .positive
      description := "Maximum nested dispatch depth" },
    { name := "max_args", kinds := [.integer], fallback := .int 32, check := some .positive
      description := "Maximum number of words per command line" },
    { name := "history_file", fallback := .text historyFile
      description := "Line editor history, empty to keep it in memory" },
    { name := "log_level", kinds := [.integer, .text], fallback := .text "warning"
      check := some .logLevel
      description := "Initial log level (0..5 or a level name)" },
    { name := "log_file", fallback := .text "", description := "Optional log file" }]

end Schema

end CommandShell
