import CommandShell.Launch
import CommandShell.Proofs.Run.Triple
import CommandShell.Proofs.Store.Fresh

/-!
# Lines do not touch the built-in commands

In a shell with nothing but the built-in commands, lines can only add aliases of them to the
top level, and take these away again.  Whatever is dispatched, by the user, by a script or by
a command that is about to be removed, the built-in commands stay what and where they are.
-/

namespace CommandShell

/-! ## Aliases come and go -/

namespace Roster

variable {B : Roster} {s : Store}

theorem Kept.mem_home (h : B.Kept s) {c : CommandId} {keyword : String}
    (hfound : (s.find B.root keyword).value = some c) : c ∈ s.itemsOf B.home := by
  have hc := (h.sound.find_eq_some_iff.1 hfound).1
  rwa [s.subcommands_of_registryOf h.home.registryOf] at hc

/-- The aliases of the top level stand for built-in commands. -/
theorem Kept.mirrors (h : B.Kept s) {c : CommandId} (hc : c ∈ s.itemsOf B.home)
    (halias : (s.command c).attributes.isAlias = true) : ∃ b ∈ B.top, s.Mirrors c b := by
  obtain ⟨others, hitems, hothers⟩ := h.top
  rw [hitems, List.mem_append] at hc
  obtain hc | hc := hc
  · have := (isAlias_of_shows (by decide) h.topFaces c hc).2
    rw [halias] at this
    cases this
  · exact hothers c hc

theorem Kept.afterAlias (h : B.Kept s) {c : CommandId} (hc : c ∈ s.itemsOf B.home)
    (keyword : String) : B.Kept (s.afterAlias B.root c keyword) := by
  obtain ⟨hmade, b, hb, hmirrors⟩ := h.makeAlias hc keyword
  rw [Store.afterAlias]
  obtain hrefused | ⟨hopen, henlist⟩ :=
    Store.register_cases hmade.home.registryOf (s.makeAlias c keyword).1
  · -- The alias is destroyed again; it stands nowhere.
    have hout : (s.makeAlias c keyword).1 ∉ (s.makeAlias c keyword).2.itemsOf B.home := by
      intro hmem
      rw [s.itemsOf_makeAlias] at hmem
      exact Store.ne_makeAlias keyword (h.sound.items hc) (h.sound.items hmem) rfl
    rw [hrefused]
    dsimp only
    rw [if_neg Bool.false_ne_true, Store.value_destroy_of_live hmirrors.live
      fun r hr => absurd hr (hmirrors.not_owns r)]
    exact hmade.bury hmirrors.live hmirrors.isAlias hmirrors.not_owns hout
  · have hsound := hmade.sound.of_changes
      (Store.changes_register hmade.home.hasCommand (s.makeAlias c keyword).1)
    rw [henlist] at hsound ⊢
    exact hmade.enlist hopen hsound ⟨b, hb, hmirrors⟩

theorem Kept.unregister (h : B.Kept s) {c : CommandId} (hc : c ∈ s.itemsOf B.home)
    (halias : (s.command c).attributes.isAlias = true) :
    B.Kept (s.unregister B.root c).value.2 := by
  have hfind := h.sound.findIn_eq_some_iff.2 ⟨hc, rfl⟩
  obtain ⟨b, -, hmirrors⟩ := h.mirrors hc halias
  rw [Store.value_unregister, h.home.registryOf]
  simp only [Option.bind_some, hfind]
  cases hposition : s.position? B.home c with
  | none => exact h
  | some position =>
    obtain ⟨hlt, heq, -⟩ := List.findIdx?_eq_some_iff_getElem.1 hposition
    have hat : (s.itemsOf B.home)[position]? = some c := by
      rw [List.getElem?_eq_getElem hlt]
      simpa using heq
    have hout : c ∉ (s.strike B.home position).itemsOf B.home := fun hmem =>
      h.sound.keyword_ne_of_strike hfind hposition hmem rfl
    have hstruck : (s.strike B.home position).Mirrors c b :=
      hmirrors.of_stays (Store.stays_of_eq rfl) (Store.stays_of_eq rfl)
    dsimp only [Option.map_some]
    rw [Store.value_destroy_of_live hstruck.live fun r hr => absurd hr (hstruck.not_owns r)]
    exact (h.strike hat halias).bury hstruck.live hstruck.isAlias hstruck.not_owns hout

theorem endures (B : Roster) : Store.Endures B.root B.Kept where
  builtin h hhandler := h.builtin hhandler
  aliased h hfound keyword := h.afterAlias (h.mem_home hfound) keyword
  unaliased h hfound halias := h.unregister (h.mem_home hfound) halias

end Roster

/-! ## Any sequence of lines -/

theorem Shell.root_ofSettings {channel : String} {settings : Settings} {root : CommandId}
    {shell : Shell} (h : (Shell.ofSettings channel settings root).value = .ok shell) :
    shell.root = root := by
  rw [Shell.ofSettings, Noted.value_bind] at h
  split at h
  · cases h
  · rw [Noted.value_bind] at h
    split at h
    · cases h
    · cases h
      rfl

namespace Interpreter

open Machine

variable {σ : Type}

/-- Nothing but the built-in commands is registered. -/
structure Fresh (I : Interpreter σ) (m : Machine σ) : Prop where
  root : I.shell.root = (({} : Store).create Shell.top).1
  store : m.workspace.store = (registerBuiltins I.shell.root Store.bare).value.2

/-- A shell that was made for a launch is fresh. -/
theorem fresh_makeShell {settings : Settings} {shell : Shell} {m m' : Machine σ}
    (h : Launch.makeShell settings m = (.ok shell, m')) : (Launch.interpreter shell).Fresh m' := by
  rw [Launch.makeShell, Session.bind] at h
  change Session.bind (Launch.noted (Shell.ofSettings Channel.program settings ⟨0⟩)) _
    (Launch.freshTree _).2 = _ at h
  have hbare : ∀ m : Machine σ, (Launch.freshTree m).2.workspace.store = Store.bare := fun _ => rfl
  rw [Session.bind, Launch.noted] at h
  dsimp only at h
  cases hshell : (Shell.ofSettings Channel.program settings ⟨0⟩).value with
  | error fault =>
    rw [hshell] at h
    cases h
  | ok made =>
    have hroot : (Launch.interpreter made : Interpreter σ).shell.root = ⟨0⟩ :=
      Shell.root_ofSettings hshell
    rw [hshell] at h
    dsimp only at h
    rw [(logsOnly_tellAll _ _).store, hbare, List.length_nil, value_registerBuiltins rfl,
      if_pos rfl] at h
    obtain ⟨hmade, rfl⟩ := Prod.mk.inj h
    obtain rfl := Except.ok.inj hmade
    exact ⟨hroot, by rw [value_registerBuiltins hroot]⟩

/-- **The built-in commands outlast every sequence of lines.**  From a shell with nothing but
the built-in commands on, whatever lines are dispatched, the top level begins with these in
order, none of them destroyed or changed, the command for the log has its own below it, and
all other commands of the top level are aliases of built-in ones. -/
theorem intact_dispatchAll {I : Interpreter σ} {m : Machine σ} (h : I.Fresh m)
    (lines : List String) :
    I.shell.root = Roster.fresh.root ∧
      Roster.fresh.Intact (I.dispatchAll lines m).workspace.store := by
  have hroot : I.shell.root = Roster.fresh.root := h.root
  have hstore : m.workspace.store = Store.fresh := by
    rw [h.store, value_registerBuiltins hroot]
  have hendures : Store.Endures I.shell.root Roster.fresh.Kept := hroot ▸ Roster.fresh.endures
  have hkept : Roster.fresh.Kept m.workspace.store := hstore ▸ Roster.kept_fresh
  exact ⟨hroot, (keeps_dispatchAll hendures lines m hkept).intact⟩

end Interpreter

/-- A shell without an application. -/
def plain : Interpreter Unit := Launch.interpreter { root := ⟨0⟩ }

/-- The built-in commands, and a script that gives two of them other names. -/
def plainStart : Machine Unit where
  workspace :=
    { store := (registerBuiltins ⟨0⟩ Store.bare).value.2
      disk := { entries := [(["f"], .file "alias l log\nalias a l\nunalias l\n".toUTF8.toList)] }
      environment := {}
      application := () }
  journal := {}

/-- An alias of `unalias` removes itself, a script makes aliases of aliases, and a built-in
command is not removed. -/
theorem plain_intact :
    plain.Fresh plainStart ∧ Roster.fresh.Intact (plain.dispatchAll
      ["alias u unalias", "u u", "source /f", "unalias help"] plainStart).workspace.store := by
  have hfresh : plain.Fresh plainStart := ⟨rfl, rfl⟩
  exact ⟨hfresh, (Interpreter.intact_dispatchAll hfresh _).2⟩

end CommandShell
