import CommandShell.Proofs.Store.Roster

/-!
# A tree with the built-in commands only

The built-in commands are made and registered one after another, those of the log below
their own command.  A new command has no sub-commands, so it can be registered wherever its
keyword is free and the registry is not destroyed.  Whether this is so for a whole list of
commands can be computed; for the built-in ones in a new tree it is.
-/

namespace CommandShell

namespace Store

variable {s t : Store}

/-! ## Registering one command after another -/

/-- A new command with this face can be registered under a command. -/
def CanAdopt (s : Store) (parent : CommandId) (face : Face) : Prop :=
  s.HasCommand parent ∧ face.keyword ≠ "" ∧
    (∀ d ∈ s.subcommands parent, s.HasCommand d ∧ s.keyword d ≠ face.keyword) ∧
    ∀ r ∈ s.registryOf parent, (s.registry r).destroyed = false

instance (s : Store) (parent : CommandId) (face : Face) : Decidable (s.CanAdopt parent face) :=
  inferInstanceAs (Decidable (_ ∧ _))

/-- A new command joins the registry of another. -/
def adopt (s : Store) (parent : CommandId) (face : Face) : Store :=
  let ensured := (s.create face).2.ensureRegistry parent
  ensured.2.enlist ensured.1 s.nextCommand

theorem value_register_create {parent : CommandId} {face : Face} (h : s.CanAdopt parent face) :
    ((s.create face).2.register parent s.nextCommand).value = (true, s.adopt parent face) := by
  obtain ⟨hparent, hnamed, hfree, hopen⟩ := h
  have hne : s.nextCommand ≠ parent := (ne_nextCommand hparent).symm
  have hcommand : (s.create face).2.command s.nextCommand = { toFace := face } :=
    (s.command_addCommand _ _).trans (if_pos rfl)
  have hkeyword : (s.create face).2.keyword s.nextCommand = face.keyword := by
    rw [keyword, hcommand]
  have hbare : (s.create face).2.registryOf s.nextCommand = none := by
    rw [registryOf, hcommand]
    rfl
  have hregistry : (s.create face).2.registryOf parent = s.registryOf parent :=
    (s.registryOf_addCommand _ _).trans (if_neg hne.symm)
  rw [adopt]
  cases hr : s.registryOf parent with
  | none =>
    have hensure := (s.create face).2.ensureRegistry_of_none (hregistry.trans hr)
    have hhas : (s.create face).2.HasCommand parent := (Change.create face).hasCommand hparent
    rw [hensure]
    refine value_register_of_bare hensure (hkeyword ▸ hnamed) (by rw [hcommand]) hne ?_ ?_ ?_
    · rw [registryOf_furnish _ hhas, if_neg hne, hbare]
    · rw [itemsOf_furnish, itemsOf,
        registry_of_not_hasRegistry _ (not_hasRegistry_nextRegistry _)]
      simp [Registry.missing]
    · rw [furnish, registry_setCommand, registry_addRegistry, if_pos rfl]
  | some r =>
    have hensure := (s.create face).2.ensureRegistry_of_some (hregistry.trans hr)
    rw [hensure]
    refine value_register_of_bare hensure (hkeyword ▸ hnamed) (by rw [hcommand]) hne hbare ?_
      (hopen r hr)
    intro d hd
    rw [s.subcommands_of_registryOf hr] at hfree
    obtain ⟨hhas, hkey⟩ := hfree d hd
    rw [hkeyword, create, keyword_addCommand, if_neg (ne_nextCommand hhas)]
    exact hkey

/-- New commands join the registry of another, one after another. -/
def adoptAll (s : Store) (parent : CommandId) (faces : List Face) : Store :=
  faces.foldl (·.adopt parent) s

/-- New commands with these faces can be registered one after another. -/
def CanAdoptAll (s : Store) (parent : CommandId) : List Face → Prop
  | [] => True
  | face :: rest => s.CanAdopt parent face ∧ (s.adopt parent face).CanAdoptAll parent rest

instance decidableCanAdoptAll (s : Store) (parent : CommandId) :
    (faces : List Face) → Decidable (s.CanAdoptAll parent faces)
  | [] => inferInstanceAs (Decidable True)
  | face :: rest =>
    have := decidableCanAdoptAll (s.adopt parent face) parent rest
    inferInstanceAs (Decidable (_ ∧ _))

theorem value_registerAll {parent : CommandId} {faces : List Face}
    (h : s.CanAdoptAll parent faces) :
    (registerAll s parent faces).value = (true, s.adoptAll parent faces) := by
  induction faces generalizing s with
  | nil => rfl
  | cons face rest ih =>
    obtain ⟨hfirst, hrest⟩ := h
    have hvalue := value_register_create hfirst
    change ((s.create face).2.register parent (s.create face).1).value = _ at hvalue
    rw [registerAll]
    dsimp only
    rw [Noted.value_bind, hvalue]
    dsimp only
    rw [Noted.value_bind, ih hrest]
    rfl

/-- The built-in commands below one of the top level. -/
def facesBelow (face : Face) : List Face := if face.keyword = "log" then logFaces else []

/-- New commands join the top level one after another, each with those below it. -/
def adoptTop (s : Store) (root : CommandId) : List Face → Store
  | [] => s
  | face :: rest =>
    ((s.adopt root face).adoptAll s.nextCommand (facesBelow face)).adoptTop root rest

/-- New commands with these faces can be registered so. -/
def CanAdoptTop (s : Store) (root : CommandId) : List Face → Prop
  | [] => True
  | face :: rest => s.CanAdopt root face ∧
    (s.adopt root face).CanAdoptAll s.nextCommand (facesBelow face) ∧
    ((s.adopt root face).adoptAll s.nextCommand (facesBelow face)).CanAdoptTop root rest

instance decidableCanAdoptTop (s : Store) (root : CommandId) :
    (faces : List Face) → Decidable (s.CanAdoptTop root faces)
  | [] => inferInstanceAs (Decidable True)
  | face :: rest =>
    have := decidableCanAdoptTop ((s.adopt root face).adoptAll s.nextCommand (facesBelow face))
      root rest
    inferInstanceAs (Decidable (_ ∧ _ ∧ _))

theorem value_registerTop {root : CommandId} {faces : List Face} (h : s.CanAdoptTop root faces) :
    (registerTop s root faces).value = (true, s.adoptTop root faces) := by
  induction faces generalizing s with
  | nil => rfl
  | cons face rest ih =>
    obtain ⟨hfirst, hbelow, hrest⟩ := h
    have hvalue := value_register_create hfirst
    change ((s.create face).2.register root (s.create face).1).value = _ at hvalue
    have hvalue' := value_registerAll hbelow
    change (registerAll _ (s.create face).1 (if face.keyword = "log" then logFaces else [])).value =
      _ at hvalue'
    rw [registerTop]
    dsimp only
    rw [Noted.value_bind, hvalue]
    dsimp only
    rw [Noted.value_bind, hvalue']
    dsimp only
    rw [Noted.value_bind, ih hrest]
    rfl

theorem hasCommand_create (s : Store) (face : Face) :
    (s.create face).2.HasCommand s.nextCommand := by
  simp [HasCommand, create, addCommand, nextCommand]

/-- Making a command and registering it are two operations. -/
theorem later_register_create {parent : CommandId} (hparent : s.HasCommand parent) (face : Face) :
    Later s ((s.create face).2.register parent s.nextCommand).value.2 := by
  have hparent' : (s.create face).2.HasCommand parent := (Change.create face).hasCommand hparent
  have hops : s.Admits [.create face, .register parent s.nextCommand] :=
    ⟨by simp [Operation.operands], by
      simpa [Operation.operands] using ⟨hparent', s.hasCommand_create face⟩, trivial⟩
  exact hops.later

theorem later_registerAll (hs : s.Sound) {parent : CommandId} (hparent : s.HasCommand parent)
    (faces : List Face) : Later s (registerAll s parent faces).value.2 := by
  induction faces generalizing s with
  | nil => exact .refl
  | cons face rest ih =>
    have hfirst := later_register_create hparent face
    have hchanges := hs.changes hfirst
    exact hfirst.trans (ih (hs.of_changes hchanges) (hchanges.hasCommand hparent))

theorem later_registerTop (hs : s.Sound) {root : CommandId} (hroot : s.HasCommand root)
    (faces : List Face) : Later s (registerTop s root faces).value.2 := by
  induction faces generalizing s with
  | nil => exact .refl
  | cons face rest ih =>
    have hfirst := later_register_create hroot face
    have hchanges := hs.changes hfirst
    have hnext : ((s.create face).2.register root s.nextCommand).value.2.HasCommand
        s.nextCommand :=
      (changes_register (Change.hasCommand (.create face) hroot) s.nextCommand).hasCommand
        (s.hasCommand_create face)
    have hbelow := later_registerAll (hs.of_changes hchanges) hnext
      (if face.keyword = "log" then logFaces else [])
    have hchanges' := hs.changes (hfirst.trans hbelow)
    exact (hfirst.trans hbelow).trans (ih (hs.of_changes hchanges') (hchanges'.hasCommand hroot))

end Store

/-! ## The built-in commands -/

/-- A tree with nothing but its top. -/
def Store.bare : Store := (({} : Store).create Shell.top).2

/-- A tree with the built-in commands only. -/
def Store.fresh : Store := Store.bare.adoptTop ⟨0⟩ builtinFaces

/-- All built-in commands can be registered in a new tree. -/
theorem value_registerBuiltins {root : CommandId} (hroot : root = ⟨0⟩) :
    (registerBuiltins root Store.bare).value = (true, Store.fresh) := by
  subst hroot
  exact Store.value_registerTop (by decide +kernel)

theorem Store.reachable_fresh : Store.fresh.Reachable := by
  have hbare : Store.bare.Reachable := Store.Reachable.perform .refl (.create Shell.top) (by decide)
  have hlater : Store.bare.Later (registerBuiltins ⟨0⟩ Store.bare).value.2 :=
    Store.later_registerTop hbare.sound (by decide) builtinFaces
  rw [value_registerBuiltins rfl] at hlater
  exact hbare.later hlater

/-- The identities that the built-in commands have in a new tree. -/
def Roster.fresh : Roster where
  root := ⟨0⟩
  home := ⟨0⟩
  top := [⟨1⟩, ⟨2⟩, ⟨3⟩, ⟨4⟩, ⟨8⟩, ⟨9⟩]
  log := ⟨4⟩
  logHome := ⟨1⟩
  sub := [⟨5⟩, ⟨6⟩, ⟨7⟩]

instance decidableBuiltin : (handler : Handler) → Decidable (∃ b, handler = .builtin b)
  | .builtin b => .isTrue ⟨b, rfl⟩
  | .custom _ => .isFalse (by simp)

theorem Roster.kept_fresh : Roster.fresh.Kept Store.fresh := by
  have hbuiltin : ∀ command ∈ Store.fresh.commands, ∀ handler ∈ command.handler,
      ∃ b, handler = .builtin b := by decide +kernel
  constructor
  case sound => exact Store.reachable_fresh.sound
  case builtin =>
    intro c handler hc
    rw [Store.command] at hc
    cases hcommand : Store.fresh.commands[c.index]? with
    | none =>
      rw [hcommand] at hc
      cases hc
    | some command =>
      rw [hcommand] at hc
      exact hbuiltin command (List.mem_of_getElem? hcommand) handler hc
  case root => exact ⟨rfl, rfl⟩
  case home => rfl
  case top => exact ⟨[], rfl, by simp⟩
  case topFaces => repeat' constructor
  case log => decide
  case logHome => rfl
  case apart => decide
  case sub => rfl
  case subFaces => repeat' constructor

end CommandShell
