import CommandShell.Note
import CommandShell.Store.Basic
import CommandShell.Words

/-!
# Looking up sub-commands

Two look-ups among the direct sub-commands of a command: by the whole keyword, and
by its beginning.  A command whose registry is empty answers like one that has none.
-/

namespace CommandShell

/-- The keywords that a beginning fits, and the length of the longest of them. -/
structure Matches where
  /-- The keywords, in the order of registration. -/
  keywords : List String
  /-- The length of the longest. -/
  longest : Nat
deriving DecidableEq, Repr

namespace Store

variable (s : Store)

/-- The direct sub-command with a keyword. -/
def find (c : CommandId) (keyword : String) : Noted (Option CommandId) :=
  match s.registryOf c with
  | none => nothing
  | some r =>
    if (s.itemsOf r).isEmpty then nothing
    else
      match s.findIn r keyword with
      | some found => return some found
      | none => do
        Noted.say Channel.command Level.verbose
          ("Command " ++ Text.quoted keyword ++ " not found under "
            ++ Text.quoted (s.keyword c))
        return none
where
  nothing : Noted (Option CommandId) := do
    Noted.say Channel.command Level.verbose
      ("Empty command registry under " ++ Text.quoted (s.keyword c))
    return none

/-- What `find` answers, without its notes. -/
theorem value_find (c : CommandId) (keyword : String) :
    (s.find c keyword).value =
      (s.subcommands c).find? fun item => s.keyword item == keyword := by
  unfold find subcommands
  cases hr : s.registryOf c with
  | none => simp [find.nothing]
  | some r =>
    simp only [Option.map_some, Option.getD_some]
    split
    · rename_i h
      simp [find.nothing, List.isEmpty_iff.1 h]
    · change _ = s.findIn r keyword
      cases s.findIn r keyword <;> rfl

/-- The direct sub-commands whose keyword starts with a text.  There is no answer if
nothing was typed or there is no sub-command at all. -/
def startingWith (c : CommandId) (start? : Option String) : Noted (Option Matches) :=
  let items := s.subcommands c
  match start? with
  | none => nothing "None" items
  | some start =>
    if items.isEmpty then nothing (Text.quoted start) items
    else do
      items.forM fun item =>
        Noted.say Channel.command Level.verbose
          ("checking " ++ Text.quoted (s.keyword item) ++ " against " ++ Text.quoted start)
      let keywords := (items.map s.keyword).filter (CommandShell.startsWith start)
      return some ⟨keywords, (keywords.map String.length).foldl max 0⟩
where
  nothing (start : String) (items : List CommandId) : Noted (Option Matches) := do
    Noted.say Channel.command Level.debug
      ("substring: " ++ start ++ "  sub-commands: "
        ++ (if items.isEmpty then "None" else toString items.length))
    return none

/-- What `startingWith` answers, without its notes. -/
theorem value_startingWith (c : CommandId) (start? : Option String) :
    (s.startingWith c start?).value = start?.bind fun start =>
      if (s.subcommands c).isEmpty then none
      else
        let keywords := ((s.subcommands c).map s.keyword).filter (CommandShell.startsWith start)
        some ⟨keywords, (keywords.map String.length).foldl max 0⟩ := by
  cases start? with
  | none => rfl
  | some start =>
    rw [startingWith, Option.bind_some]
    dsimp only
    split <;> rfl

theorem mem_startingWith {s : Store} {c : CommandId} {start k : String} {found : Matches}
    (h : (s.startingWith c (some start)).value = some found) :
    k ∈ found.keywords ↔
      (∃ d ∈ s.subcommands c, s.keyword d = k) ∧ CommandShell.startsWith start k = true := by
  rw [value_startingWith, Option.bind_some] at h
  split at h
  · cases h
  · cases h
    simp [List.mem_filter]

end Store

end CommandShell
