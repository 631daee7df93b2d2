import CommandShell.Builtin
import CommandShell.Proofs.Store.Keywords
import CommandShell.Proofs.Store.Ownership

/-!
# The built-in commands among the others

The built-in commands stand at the top level, in order, before all others; the command for
the log has its own below it.  Other commands of the top level are aliases: each runs the
handler of a built-in command, in its context, and borrows its registry.

Four changes of a store respect this.  An alias may be made, of any command of the top
level; it may join the top level; an alias may leave the top level; and an alias that stands
nowhere may be destroyed.  None of them touches a command that is not an alias, except that
it may be given a registry.
-/

namespace CommandShell

namespace Store

variable {s t u : Store}

/-! ## Commands that stay -/

/-- The command shows a face and is not destroyed. -/
def Shows (s : Store) (c : CommandId) (face : Face) : Prop :=
  (s.command c).toFace = face ∧ (s.command c).destroyed = false

/-- The first command is a live alias of the second: it has its handler and its context, and
borrows its registry. -/
structure Mirrors (s : Store) (a b : CommandId) : Prop where
  live : (s.command a).destroyed = false
  isAlias : (s.command a).attributes.isAlias = true
  handler : (s.command a).handler = (s.command b).handler
  context : (s.command a).context = (s.command b).context
  registry : ∃ r, (s.command a).children = some (.borrowed r) ∧ s.Owns b r

/-- The command stays as it is; it may be given a registry if it has none. -/
structure Stays (s t : Store) (c : CommandId) : Prop where
  face : (t.command c).toFace = (s.command c).toFace
  destroyed : (t.command c).destroyed = (s.command c).destroyed
  children : ∀ {children}, (s.command c).children = some children →
    (t.command c).children = some children

theorem stays_of_eq {c : CommandId} (h : t.command c = s.command c) : s.Stays t c :=
  ⟨by rw [h], by rw [h], fun hchildren => h ▸ hchildren⟩

theorem Stays.trans {c : CommandId} (h : s.Stays t c) (h' : t.Stays u c) : s.Stays u c :=
  ⟨h'.face.trans h.face, h'.destroyed.trans h.destroyed, fun hc => h'.children (h.children hc)⟩

theorem Shows.of_stays {c : CommandId} {face : Face} (h : s.Shows c face) (hc : s.Stays t c) :
    t.Shows c face :=
  ⟨hc.face.trans h.1, hc.destroyed.trans h.2⟩

theorem Mirrors.of_stays {a b : CommandId} (h : s.Mirrors a b) (ha : s.Stays t a)
    (hb : s.Stays t b) : t.Mirrors a b where
  live := ha.destroyed.trans h.live
  isAlias := by
    have := h.isAlias
    rwa [← ha.face] at this
  handler := by
    have := h.handler
    rwa [← ha.face, ← hb.face] at this
  context := by
    have := h.context
    rwa [← ha.face, ← hb.face] at this
  registry := by
    obtain ⟨r, hborrows, howns⟩ := h.registry
    exact ⟨r, ha.children hborrows, hb.children howns⟩

theorem Mirrors.not_owns {a b : CommandId} (h : s.Mirrors a b) (r : RegistryId) :
    ¬ s.Owns a r := by
  obtain ⟨q, hborrows, -⟩ := h.registry
  intro howns
  rw [Owns, hborrows] at howns
  cases howns

theorem stays_ensureRegistry (s : Store) (c d : CommandId) :
    s.Stays (s.ensureRegistry c).2 d := by
  cases hc : s.registryOf c with
  | some r =>
    rw [ensureRegistry_of_some _ hc]
    exact stays_of_eq rfl
  | none =>
    rw [ensureRegistry_of_none _ hc]
    by_cases hd : d = c ∧ s.HasCommand c
    · have hcommand : (s.furnish c).command d =
          { s.command c with children := some (.owned s.nextRegistry) } :=
        (command_setCommand _ _ _ _).trans (if_pos hd)
      obtain ⟨rfl, -⟩ := hd
      refine ⟨by rw [hcommand], by rw [hcommand], fun hchildren => ?_⟩
      rw [s.registryOf_of_children hchildren] at hc
      cases hc
    · exact stays_of_eq ((command_setCommand _ _ _ _).trans (if_neg hd))

theorem itemsOf_ensureRegistry (s : Store) (c : CommandId) (r : RegistryId) :
    (s.ensureRegistry c).2.itemsOf r = s.itemsOf r := by
  cases hc : s.registryOf c with
  | some q => rw [ensureRegistry_of_some _ hc]
  | none => rw [ensureRegistry_of_none _ hc, itemsOf_furnish]

/-- A command that borrows none owns the registry that it has or is given. -/
theorem owns_ensureRegistry {c : CommandId} (hc : s.HasCommand c)
    (hborrows : ∀ r, (s.command c).children ≠ some (.borrowed r)) :
    (s.ensureRegistry c).2.Owns c (s.ensureRegistry c).1 := by
  cases hchildren : (s.command c).children with
  | none =>
    rw [ensureRegistry_of_none _ (by rw [registryOf, hchildren, Option.map_none]),
      owns_furnish hc, if_pos rfl]
  | some children =>
    rw [ensureRegistry_of_some _ (s.registryOf_of_children hchildren)]
    cases children with
    | owned r => exact hchildren
    | borrowed r => exact absurd hchildren (hborrows r)

/-! ## A new alias -/

section

variable (s) (c : CommandId) (keyword : String)

theorem command_makeAlias_self :
    (s.makeAlias c keyword).2.command (s.makeAlias c keyword).1 =
      { toFace := aliasFace (s.command c).toFace keyword,
        children := some (.borrowed (s.ensureRegistry c).1) } :=
  (command_addCommand _ _ _).trans (if_pos rfl)

theorem command_makeAlias_of_ne {d : CommandId} (hd : d ≠ (s.makeAlias c keyword).1) :
    (s.makeAlias c keyword).2.command d = (s.ensureRegistry c).2.command d :=
  (command_addCommand _ _ _).trans (if_neg hd)

theorem itemsOf_makeAlias (r : RegistryId) :
    (s.makeAlias c keyword).2.itemsOf r = s.itemsOf r :=
  s.itemsOf_ensureRegistry c r

variable {s c}

theorem ne_makeAlias (hc : s.HasCommand c) {d : CommandId} (hd : s.HasCommand d) :
    d ≠ (s.makeAlias c keyword).1 :=
  ne_nextCommand ((changes_ensureRegistry hc).hasCommand hd)

theorem stays_makeAlias (hc : s.HasCommand c) {d : CommandId} (hd : s.HasCommand d) :
    s.Stays (s.makeAlias c keyword).2 d :=
  (s.stays_ensureRegistry c d).trans
    (stays_of_eq (s.command_makeAlias_of_ne c keyword (ne_makeAlias keyword hc hd)))

/-- An alias stands for every command that has the handler and the context of its original
and owns its registry. -/
theorem mirrors_makeAlias {b : CommandId}
    (hhandler : (s.command c).handler = ((s.makeAlias c keyword).2.command b).handler)
    (hcontext : (s.command c).context = ((s.makeAlias c keyword).2.command b).context)
    (howns : (s.makeAlias c keyword).2.Owns b (s.ensureRegistry c).1) :
    (s.makeAlias c keyword).2.Mirrors (s.makeAlias c keyword).1 b where
  live := by rw [command_makeAlias_self]
  isAlias := by
    rw [command_makeAlias_self]
    exact isAlias_aliasFace _ _
  handler := by
    rw [command_makeAlias_self]
    exact hhandler
  context := by
    rw [command_makeAlias_self]
    exact hcontext
  registry := ⟨_, by rw [command_makeAlias_self], howns⟩

end

end Store

/-! ## The roster -/

/-- The identities of the built-in commands, and of the registries where they stand. -/
structure Roster where
  /-- The top. -/
  root : CommandId
  /-- The registry of the top level. -/
  home : RegistryId
  /-- The built-in commands of the top level. -/
  top : List CommandId
  /-- The command for the log. -/
  log : CommandId
  /-- Its registry. -/
  logHome : RegistryId
  /-- Its sub-commands. -/
  sub : List CommandId

namespace Roster

variable {B : Roster} {s t : Store}

/-- The built-in commands are there as they were registered, before all others of the top
level, and these are aliases of them.  The command for the log has its own commands below it. -/
structure Intact (B : Roster) (s : Store) : Prop where
  top : ∃ others, s.subcommands B.root = B.top ++ others ∧
    ∀ a ∈ others, ∃ b ∈ B.top, s.Mirrors a b
  topFaces : List.Forall₂ s.Shows B.top builtinFaces
  sub : s.subcommands B.log = B.sub
  subFaces : List.Forall₂ s.Shows B.sub logFaces

/-- What every line keeps: the built-in commands are there, where they belong, and there are
no handlers but theirs.  The top owns the top level, and the command for the log, which is one of
its commands, owns another registry with its sub-commands. -/
structure Kept (B : Roster) (s : Store) : Prop where
  sound : s.Sound
  builtin : ∀ {c handler}, (s.command c).handler = some handler → ∃ b, handler = .builtin b
  root : s.Shows B.root Shell.top
  home : s.Owns B.root B.home
  top : ∃ others, s.itemsOf B.home = B.top ++ others ∧ ∀ a ∈ others, ∃ b ∈ B.top, s.Mirrors a b
  topFaces : List.Forall₂ s.Shows B.top builtinFaces
  log : B.log ∈ B.top
  logHome : s.Owns B.log B.logHome
  apart : B.logHome ≠ B.home
  sub : s.itemsOf B.logHome = B.sub
  subFaces : List.Forall₂ s.Shows B.sub logFaces

theorem Kept.intact (h : B.Kept s) : B.Intact s where
  top := by
    obtain ⟨others, hitems, hothers⟩ := h.top
    refine ⟨others, ?_, hothers⟩
    rw [Store.subcommands_of_registryOf _ h.home.registryOf, hitems]
  topFaces := h.topFaces
  sub := by rw [Store.subcommands_of_registryOf _ h.logHome.registryOf, h.sub]
  subFaces := h.subFaces

/-- No built-in command is an alias. -/
theorem isAlias_of_shows {ids : List CommandId} {faces : List Face}
    (hfaces : ∀ face ∈ faces, face.attributes.isAlias = false)
    (h : List.Forall₂ s.Shows ids faces) : ∀ c ∈ ids,
      (s.command c).destroyed = false ∧ (s.command c).attributes.isAlias = false := by
  induction h with
  | nil => simp
  | cons hshows _ ih =>
    obtain ⟨hface, hrest⟩ := List.forall_mem_cons.1 hfaces
    refine List.forall_mem_cons.2 ⟨⟨hshows.2, ?_⟩, ih hrest⟩
    rw [← hshows.1] at hface
    exact hface

theorem forall₂_of_stays {ids : List CommandId} {faces : List Face}
    (h : List.Forall₂ s.Shows ids faces) (hstays : ∀ c ∈ ids, s.Stays t c) :
    List.Forall₂ t.Shows ids faces := by
  induction h with
  | nil => exact .nil
  | cons hshows _ ih =>
    obtain ⟨hfirst, hrest⟩ := List.forall_mem_cons.1 hstays
    exact .cons (hshows.of_stays hfirst) (ih hrest)

/-- The invariant survives a change that leaves all commands but aliases, and does not bring
in other handlers. -/
theorem Kept.of_stays (h : B.Kept s) (ht : t.Sound)
    (hhandler : ∀ c, (t.command c).handler = none ∨
      ∃ d, (t.command c).handler = (s.command d).handler)
    (hstays : ∀ c, (s.command c).destroyed = false →
      (s.command c).attributes.isAlias = false → s.Stays t c)
    (others : List CommandId) (hitems : t.itemsOf B.home = B.top ++ others)
    (hothers : ∀ a ∈ others, (∃ b ∈ B.top, t.Mirrors a b) ∨
      s.Stays t a ∧ ∃ b ∈ B.top, s.Mirrors a b)
    (hsub : t.itemsOf B.logHome = s.itemsOf B.logHome) : B.Kept t := by
  have htop : ∀ c ∈ B.top, s.Stays t c := fun c hc =>
    (isAlias_of_shows (by decide) h.topFaces c hc).elim (hstays c)
  have hsubs : ∀ c ∈ B.sub, s.Stays t c := fun c hc =>
    (isAlias_of_shows (by decide) h.subFaces c hc).elim (hstays c)
  have hroot : s.Stays t B.root := hstays _ h.root.2 (by rw [h.root.1]; rfl)
  constructor
  case sound => exact ht
  case builtin =>
    intro c handler hc
    obtain hnone | ⟨d, hd⟩ := hhandler c
    · rw [hnone] at hc
      cases hc
    · exact h.builtin (hd ▸ hc)
  case root => exact h.root.of_stays hroot
  case home => exact hroot.children h.home
  case top =>
    refine ⟨others, hitems, fun a ha => ?_⟩
    obtain hmirrors | ⟨hstays, b, hb, hmirrors⟩ := hothers a ha
    · exact hmirrors
    · exact ⟨b, hb, hmirrors.of_stays hstays (htop b hb)⟩
  case topFaces => exact forall₂_of_stays h.topFaces htop
  case log => exact h.log
  case logHome => exact (htop _ h.log).children h.logHome
  case apart => exact h.apart
  case sub => exact hsub.trans h.sub
  case subFaces => exact forall₂_of_stays h.subFaces hsubs

/-! ## The four changes -/

/-- An alias is made of a command of the top level. -/
theorem Kept.makeAlias (h : B.Kept s) {c : CommandId} (hc : c ∈ s.itemsOf B.home)
    (keyword : String) :
    B.Kept (s.makeAlias c keyword).2 ∧
      ∃ b ∈ B.top, (s.makeAlias c keyword).2.Mirrors (s.makeAlias c keyword).1 b := by
  obtain ⟨others, hitems, hothers⟩ := h.top
  have hhas := h.sound.items hc
  have hstays : ∀ {d}, s.HasCommand d → s.Stays (s.makeAlias c keyword).2 d := fun hd =>
    Store.stays_makeAlias keyword hhas hd
  constructor
  · refine h.of_stays (h.sound.of_changes (Store.changes_makeAlias h.sound hhas keyword))
      (fun d => .inr ?_) (fun d hlive _ => hstays (s.index_lt_of_live hlive)) others
      ((s.itemsOf_makeAlias c keyword _).trans hitems) (fun a ha => .inr ⟨hstays ?_, hothers a ha⟩)
      (s.itemsOf_makeAlias c keyword _)
    · by_cases hd : d = (s.makeAlias c keyword).1
      · refine ⟨c, ?_⟩
        rw [hd, s.command_makeAlias_self]
        rfl
      · refine ⟨d, ?_⟩
        rw [s.command_makeAlias_of_ne c keyword hd]
        exact congrArg Face.handler (s.stays_ensureRegistry c d).face
    · exact h.sound.items (hitems ▸ List.mem_append_right _ ha)
  · rw [hitems, List.mem_append] at hc
    obtain hc | hc := hc
    · -- The original is a built-in command, which borrows nothing.
      have hborrows : ∀ r, (s.command c).children ≠ some (.borrowed r) := by
        intro r hr
        have := (isAlias_of_shows (by decide) h.topFaces c hc).2
        rw [h.sound.aliased hr] at this
        cases this
      have hface := (hstays hhas).face
      refine ⟨c, hc, Store.mirrors_makeAlias keyword (congrArg Face.handler hface).symm
        (congrArg Face.context hface).symm ?_⟩
      rw [Store.Owns, s.command_makeAlias_of_ne c keyword (Store.ne_makeAlias keyword hhas hhas)]
      exact Store.owns_ensureRegistry hhas hborrows
    · -- The original is an alias itself, and so is the new one, of the same command.
      obtain ⟨b, hb, hmirrors⟩ := hothers c hc
      obtain ⟨r, hborrows, howns⟩ := hmirrors.registry
      have hb' := hstays howns.hasCommand
      refine ⟨b, hb, Store.mirrors_makeAlias keyword
        (hmirrors.handler.trans (congrArg Face.handler hb'.face).symm)
        (hmirrors.context.trans (congrArg Face.context hb'.face).symm) ?_⟩
      rw [s.ensureRegistry_of_some (s.registryOf_of_children hborrows)]
      exact hb'.children howns

/-- An alias joins the top level. -/
theorem Kept.enlist (h : B.Kept s) {a : CommandId} (hopen : (s.registry B.home).destroyed = false)
    (ht : (s.enlist B.home a).Sound) (ha : ∃ b ∈ B.top, s.Mirrors a b) :
    B.Kept (s.enlist B.home a) := by
  obtain ⟨others, hitems, hothers⟩ := h.top
  have hhas := s.hasRegistry_of_live hopen
  have hstays : ∀ c, s.Stays (s.enlist B.home a) c := fun c => Store.stays_of_eq rfl
  refine h.of_stays ht (fun c => .inr ⟨c, rfl⟩) (fun c _ _ => hstays c) (others ++ [a]) ?_ ?_ ?_
  · rw [s.itemsOf_enlist hhas, if_pos rfl, hitems, List.append_assoc]
  · intro c hc
    refine .inr ⟨hstays c, ?_⟩
    obtain hc | hc := List.mem_append.1 hc
    · exact hothers c hc
    · exact List.mem_singleton.1 hc ▸ ha
  · rw [s.itemsOf_enlist hhas, if_neg h.apart]

/-- An alias leaves the top level. -/
theorem Kept.strike (h : B.Kept s) {position : Nat} {c : CommandId}
    (hposition : (s.itemsOf B.home)[position]? = some c)
    (hc : (s.command c).attributes.isAlias = true) : B.Kept (s.strike B.home position) := by
  obtain ⟨others, hitems, hothers⟩ := h.top
  have hstays : ∀ d, s.Stays (s.strike B.home position) d := fun d => Store.stays_of_eq rfl
  -- The built-in commands are no aliases, so it is one of the others.
  have hlater : B.top.length ≤ position := by
    by_contra hlt
    rw [hitems, List.getElem?_append_left (by omega)] at hposition
    have := (isAlias_of_shows (by decide) h.topFaces c (List.mem_of_getElem? hposition)).2
    rw [hc] at this
    cases this
  refine h.of_stays (h.sound.of_change (.strike B.home position)) (fun d => .inr ⟨d, rfl⟩)
    (fun d _ _ => hstays d) (others.eraseIdx (position - B.top.length)) ?_ ?_ ?_
  · rw [Store.itemsOf_strike, if_pos rfl, hitems, List.eraseIdx_append_of_length_le hlater]
  · intro d hd
    exact .inr ⟨hstays d, hothers d (List.mem_of_mem_eraseIdx hd)⟩
  · rw [Store.itemsOf_strike, if_neg h.apart]

/-- An alias that does not stand at the top level is destroyed. -/
theorem Kept.bury (h : B.Kept s) {a : CommandId} (hlive : (s.command a).destroyed = false)
    (halias : (s.command a).attributes.isAlias = true) (howns : ∀ r, ¬ s.Owns a r)
    (hout : a ∉ s.itemsOf B.home) : B.Kept (s.bury a) := by
  obtain ⟨others, hitems, hothers⟩ := h.top
  have hstays : ∀ d, d ≠ a → s.Stays (s.bury a) d := fun d hd =>
    Store.stays_of_eq ((s.command_bury a d).trans (if_neg fun h => hd h.1))
  have hsame : ∀ r, (s.bury a).itemsOf r = s.itemsOf r := fun r =>
    (s.itemsOf_bury a r).trans (if_neg fun h => howns r h.1)
  refine h.of_stays (h.sound.of_change (.bury hlive)) (fun d => ?_) (fun d _ hd => ?_) others
    ((hsame _).trans hitems) (fun d hd => ?_) (hsame _)
  · rw [s.command_bury]
    split_ifs
    · exact .inl rfl
    · exact .inr ⟨d, rfl⟩
  · refine hstays d ?_
    rintro rfl
    rw [halias] at hd
    cases hd
  · refine .inr ⟨hstays d ?_, hothers d hd⟩
    rintro rfl
    exact hout (hitems ▸ List.mem_append_right _ hd)

end Roster

end CommandShell
