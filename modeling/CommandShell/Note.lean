/-!
# Notes for the log

Most of the work is done by functions that also have something to say about it.
They return their answer together with the notes they made, in order; whether a
note is shown, and where, is decided later and cannot change the answer.
-/

namespace CommandShell

/-! ## Levels and channels -/

namespace Level

/-- Shown only on request: every step. -/
def verbose : Int := 5
/-- Shown only on request: decisions. -/
def debug : Int := 10
/-- Worth knowing. -/
def info : Int := 20
/-- Probably not what the user wanted. -/
def warning : Int := 30
/-- A request could not be met. -/
def error : Int := 40
/-- The program cannot go on. -/
def critical : Int := 50

end Level

namespace Channel

/-- The program as a whole. -/
def program : String := "cmdnest"
/-- Splitting of lines. -/
def words : String := "cmdnest.tokens"
/-- Registries of commands. -/
def registry : String := "cmdnest.registry"
/-- Commands. -/
def command : String := "cmdnest.command"
/-- Completion. -/
def completion : String := "cmdnest.completion"
/-- Argument hints. -/
def hints : String := "cmdnest.hints"
/-- Built-in commands. -/
def builtins : String := "cmdnest.builtins"
/-- The interpreter. -/
def interpreter : String := "cmdnest.interpreter"
/-- The line editor. -/
def console : String := "cmdnest.console"

end Channel

/-! ## Notes -/

/-- One record for the log. -/
structure Note where
  /-- The name it goes under. -/
  channel : String
  /-- How much it matters. -/
  level : Int
  /-- What it says. -/
  message : String
  /-- The failure that it reports, as a line of its own. -/
  cause : Option String := none
deriving DecidableEq, Repr

/-- An answer together with the notes made on the way, in order. -/
structure Noted (α : Type) where
  /-- The answer. -/
  value : α
  /-- The notes. -/
  notes : List Note := []

namespace Noted

variable {α β : Type}

/-- An answer without notes. -/
def pure (a : α) : Noted α := ⟨a, []⟩

/-- One answer after another; the notes follow each other. -/
def bind (x : Noted α) (f : α → Noted β) : Noted β :=
  ⟨(f x.value).value, x.notes ++ (f x.value).notes⟩

instance : Monad Noted where
  pure := Noted.pure
  bind := Noted.bind

@[simp] theorem value_pure (a : α) : (Pure.pure a : Noted α).value = a := rfl

@[simp] theorem notes_pure (a : α) : (Pure.pure a : Noted α).notes = [] := rfl

@[simp] theorem value_bind (x : Noted α) (f : α → Noted β) :
    (x >>= f).value = (f x.value).value := rfl

@[simp] theorem notes_bind (x : Noted α) (f : α → Noted β) :
    (x >>= f).notes = x.notes ++ (f x.value).notes := rfl

/-- A note by itself. -/
def say (channel : String) (level : Int) (message : String) : Noted Unit :=
  ⟨(), [⟨channel, level, message, none⟩]⟩

@[simp] theorem value_say (channel : String) (level : Int) (message : String) :
    (say channel level message).value = () := rfl

end Noted

end CommandShell
