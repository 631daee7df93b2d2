import CommandShell.Note
import CommandShell.Settings.Likeness
import CommandShell.Settings.Schema

/-!
# Validation

The values of a settings table are checked against a schema, field by field.  A value
of the wrong kind has one problem; otherwise the listed choices and the further demands
may each find one.  Names that are not in the schema are not wrong, but worth a warning.
-/

namespace CommandShell

/-- A problem with a field in words, with a suggestion unless it is empty. -/
def problemText (table field message : String) (suggestion : String := "") : String :=
  "[" ++ table ++ "] Config error for '" ++ field ++ "': " ++ message
    ++ if suggestion.isEmpty then "" else " -> " ++ suggestion

namespace Field

variable (f : Field) (table : String)

/-- One of the kinds of a field admits a value. -/
def admits (v : Value) : Bool :=
  f.kinds.any (·.admits v)

/-- A value is one of the listed choices, if there are any. -/
def isChoice (v : Value) : Bool :=
  match f.choices with
  | none => true
  | some choices => choices.any v.same

/-- The listed choices in words. -/
def choiceText : String :=
  ", ".intercalate ((f.choices.getD []).map Value.quoted)

/-- The problem with a value that is none of the listed choices.  It is told in words that show
the value and the choices, which fails if one of them cannot be shown. -/
def choiceProblems (v : Value) : Except Fault (List String) :=
  if f.isChoice v then .ok []
  else if (v :: f.choices.getD []).all Value.isShowable then
    .ok [problemText table f.name ("Invalid value " ++ v.quoted)
      ("Valid options: " ++ f.choiceText)]
  else .error .unshowable

/-- The problems that the further demand finds with a value. -/
def checkProblems (v : Value) : Except Fault (List String) := do
  match f.check with
  | none => return []
  | some check => return (← check.problems v).map (problemText table f.name ·)

/-- What is wrong with a value of a field. -/
def problems (v : Value) : Except Fault (List String) := do
  if f.admits v then
    return (← f.choiceProblems table v) ++ (← f.checkProblems table v)
  else
    return [problemText table f.name ("Expected " ++ f.kindText ++ ", got " ++ v.kind)]

end Field

/-- What is wrong with a settings table. -/
structure Validation where
  /-- The problems, in the order of the schema. -/
  errors : List String := []
  /-- The names of the fields that have one. -/
  invalid : List String := []
deriving DecidableEq, Repr

/-- The value of a table that counts: a missing one and no value are the same. -/
def Table.given? (t : Table) (name : String) : Option Value :=
  match t.get? name with
  | some .null => none
  | v => v

/-- Checks one field of a table. -/
def Validation.ofField (table : String) (t : Table) (f : Field) : Except Fault Validation :=
  match t.given? f.name with
  | none => .ok {}
  | some v => do
    let errors ← f.problems table v
    return ⟨errors, if errors.isEmpty then [] else [f.name]⟩

/-- Checks a table against a schema. -/
def validate (table : String) (t : Table) : Schema → Except Fault Validation
  | [] => .ok {}
  | f :: rest => do
    let first ← Validation.ofField table t f
    let others ← validate table t rest
    return ⟨first.errors ++ others.errors, first.invalid ++ others.invalid⟩

/-- What the user is told about the name closest to one that is not known; the empty
name is never suggested. -/
def suggestionText (close : Option String) : String :=
  match close.filter (!·.isEmpty) with
  | some name => " (did you mean '" ++ name ++ "'?)"
  | none => " - will be ignored"

/-- The warning about a name that is not among the known ones. -/
def unknownName (table : String) (known : List String) (name : String) : String :=
  "[" ++ table ++ "] Unknown option '" ++ name ++ "'"
    ++ suggestionText (Likeness.closest? name known)

/-- Warnings about the names of a table that are not in the schema. -/
def unknownNames (table : String) (t : Table) (schema : Schema) : List String :=
  let known := schema.map Field.name
  ((t.map (·.1)).filter fun name => !known.contains name).map (unknownName table known)

end CommandShell
