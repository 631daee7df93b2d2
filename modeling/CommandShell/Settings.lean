import CommandShell.Note
import CommandShell.Settings.Schema

/-!
# Settings

Settings are the values that were given, with those of the schema for what was not.
A setting can be read as it is, as an integer, or as a text.
-/

namespace CommandShell

/-- The values that were given, and those for what was not. -/
structure Settings where
  /-- The given values. -/
  values : Table := []
  /-- The values for what was not given. -/
  fallbacks : Table := []

namespace Settings

/-- Settings under a schema. -/
def ofTable (values : Table) (schema : Schema) : Settings :=
  ⟨values, schema.fallbacks⟩

variable (settings : Settings)

/-- The value of a setting; `other` if neither the table nor the schema has one. -/
def get (name : String) (other : Value := .null) : Value :=
  match settings.values.get? name with
  | some v => v
  | none => (settings.fallbacks.get? name).getD other

/-- The setting as an integer, if it has a value that is one.  A warning goes out under
`channel` where it has a value that is none. -/
def integer? (channel name : String) : Noted (Except Fault (Option Int)) :=
  match settings.get name with
  | .null => return .ok none
  | v =>
    match v.integer with
    | .exact n => return .ok (some n)
    | .infinite => return .error .infinite
    | .invalid => do
      Noted.say channel Level.warning ("Invalid integer value for " ++ name ++ ": " ++ v.shown)
      return .ok none

/-- The setting as an integer, or `other`. -/
def integer (channel name : String) (other : Int) : Noted (Except Fault Int) := do
  return (← settings.integer? channel name).map (·.getD other)

/-- The setting as a text, if it has a value. -/
def text? (name : String) : Option String :=
  match settings.get name with
  | .null => none
  | v => some v.shown

/-- The setting as a text, or `other`. -/
def text (name : String) (other : String := "") : String :=
  (settings.text? name).getD other

end Settings

end CommandShell
