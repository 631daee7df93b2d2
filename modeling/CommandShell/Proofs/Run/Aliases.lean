import CommandShell.Proofs.Line.Completion
import CommandShell.Proofs.Run.Attained
import CommandShell.Proofs.Run.Delegation
import CommandShell.Proofs.Store.Aliasing

/-!
# What `alias` and `unalias` answer

A line may come to the handler of `alias` under any keyword, and through commands that hand
calls over.  Wherever it does, the status tells exactly what was wrong: words are missing, the
command is not known at the top level, or the new keyword is taken.  Nothing else can go wrong,
since an alias of a command of the top level can always be registered there.  In the same way
`unalias` never fails to remove an alias that it has found.  One after the other, they leave the
top level as it was.
-/

namespace CommandShell

open Machine

variable {σ : Type}

/-! ## Lines that come to a command -/

/-- Down the tree along the words, the first command that does not hand its calls over is `c`;
it is called with the words from its own on. -/
structure Store.Resolves (s : Store) (root : CommandId) (words : List String) (c : CommandId)
    (args : List String) : Prop where
  command : ((s.descend root words).value.tail.dropWhile s.delegates).head? = some c
  args : args = words.drop ((s.descend root words).value.tail.takeWhile s.delegates).length

theorem Store.resolves_of_find {s : Store} {root c : CommandId} {word : String}
    (hfind : (s.find root word).value = some c) (hc : s.delegates c = false)
    (rest : List String) : s.Resolves root (word :: rest) c (word :: rest) := by
  obtain ⟨trail, htrail⟩ := Interpreter.exists_descend_eq_cons s c rest
  have htail : (s.descend root (word :: rest)).value.tail = c :: trail := by
    rw [value_descend_of_some hfind, List.tail_cons, htrail]
  constructor
  · rw [htail, List.dropWhile_cons_of_neg (by simp [hc])]
    rfl
  · rw [htail, List.takeWhile_cons_of_neg (by simp [hc])]
    rfl

theorem Store.Resolves.ne_nil {s : Store} {root c : CommandId} {words args : List String}
    (h : s.Resolves root words c args) : words ≠ [] := by
  rintro rfl
  have hcommand := h.command
  rw [value_descend_nil] at hcommand
  cases hcommand

namespace Interpreter

variable (I : Interpreter σ)

/-- Where a call is not handed over any more, the command is called with the words left. -/
theorem landing_of_resolves {dispatch : String → Session σ Int}
    {exec : CommandId → List String → Session σ Int} {s : Store} {root c : CommandId}
    {words args : List String} (h : s.Resolves root words c args) :
    I.landing dispatch exec s (s.descend root words).value.tail words =
      I.callWith dispatch exec args c := by
  obtain ⟨hcommand, rfl⟩ := h
  rw [landing]
  cases hdrop : (s.descend root words).value.tail.dropWhile s.delegates with
  | nil =>
    rw [hdrop] at hcommand
    cases hcommand
  | cons d rest =>
    rw [hdrop] at hcommand
    obtain rfl := Option.some.inj hcommand
    rfl

/-- A handler that does not fail answers with what its routine leads to. -/
theorem exists_answer {P : Store → Prop} {Q : Int → Store → Prop} {re : Reentry σ}
    {m : Machine σ} {call : Call}
    (h : Routine.Triple re m.depth (fun _ => False) P (I.routineFor call) Q)
    (hP : P m.workspace.store) :
    ∃ status, (I.answer re call m).1 = .ok status ∧
      Q status (I.answer re call m).2.workspace.store := by
  obtain ⟨-, hends⟩ := h.run (m.taking call) rfl hP
  rw [answer]
  cases hrun : (I.routineFor call).run re (m.taking call) with
  | mk outcome m' =>
    rw [hrun] at hends
    cases outcome with
    | ok status => exact ⟨status, rfl, hends⟩
    | error fault => exact hends.elim

variable {line : String} {m : Machine σ} {c : CommandId} {args : List String} {b : Builtin}

/-- Below the limit on nesting, a line that comes to a built-in command calls it, with the context
that it was registered with.  The dispatch returns what the command answers.  A failure can be
named if the command leaves one of its words. -/
theorem exists_answer_of_resolves (hdepth : m.depth < I.shell.maxDepth)
    (hresolves : m.workspace.store.Resolves I.shell.root (I.shell.rules.tokenize line).value c args)
    (hhandler : (m.workspace.store.command c).handler = some (.builtin b)) :
    ∃ re call m₁ m₂ outcome left,
      I.routineFor call = b.routine I.shell call ∧ call.args = args ∧
      call.context = (m.workspace.store.command c).context ∧
      m₁.workspace.store = m.workspace.store ∧ I.answer re call m₁ = (outcome, m₂) ∧
      (m₂.words ≠ [] → left ≠ []) ∧ (I.dispatch line m).1 = settled left outcome ∧
      (I.dispatch line m).2.workspace.store = m₂.workspace.store := by
  have hne := hresolves.ne_nil
  obtain ⟨m₁, m₂, m₃, outcome, left, own, hm₁, hlanding, hleft, -, hm₃, hdispatch⟩ :=
    I.exists_landing hdepth rfl hne
  have hs₁ : m₁.workspace.store = m.workspace.store := by
    rw [hm₁.store, workspace_callAll]
    rfl
  rw [← hs₁] at hhandler
  rw [I.landing_of_resolves hresolves, I.callWith_of_some hhandler] at hlanding
  refine ⟨_, callOf m₁ c (.builtin b) args, m₁, m₂, outcome, left, rfl, rfl, by rw [← hs₁]; rfl,
    hs₁, hlanding, fun hwords => ?_, by rw [hdispatch]; rfl, ?_⟩
  · rw [hleft]
    split_ifs
    · exact hwords
    · exact hne
  · have hs₃ := hm₃.store
    rw [workspace_given, workspace_returnAll] at hs₃
    rw [hdispatch]
    exact hs₃

/-- A line that comes to a built-in command which does not fail answers what this one does, and
does the same to the commands. -/
theorem dispatch_of_resolves {reply : Int × Store} (hdepth : m.depth < I.shell.maxDepth)
    (hresolves : m.workspace.store.Resolves I.shell.root (I.shell.rules.tokenize line).value c args)
    (hhandler : (m.workspace.store.command c).handler = some (.builtin b))
    (hroutine : ∀ re depth call, call.args = args →
      call.context = (m.workspace.store.command c).context →
      Routine.Triple re depth (fun _ => False) (· = m.workspace.store)
        (b.routine I.shell call : Routine σ Int) fun status t => reply = (status, t)) :
    (I.dispatch line m).1 = .ok reply.1 ∧ (I.dispatch line m).2.workspace.store = reply.2 := by
  obtain ⟨re, call, m₁, m₂, outcome, left, hroutineFor, hargs, hcontext, hs₁, hanswer, -, hstatus,
    hstore⟩ := I.exists_answer_of_resolves hdepth hresolves hhandler
  have htriple := hroutine re m₁.depth call hargs hcontext
  rw [← hroutineFor] at htriple
  obtain ⟨status, hok, hreply⟩ := I.exists_answer htriple hs₁
  rw [hanswer] at hok hreply
  dsimp only at hok hreply
  rw [hstatus, hstore, hok, hreply]
  exact ⟨rfl, rfl⟩

/-- A line that comes to a built-in command which fails at once changes no command. -/
theorem dispatch_of_raises {fault : Fault} (hdepth : m.depth < I.shell.maxDepth)
    (hresolves : m.workspace.store.Resolves I.shell.root (I.shell.rules.tokenize line).value c args)
    (hhandler : (m.workspace.store.command c).handler = some (.builtin b)) (hargs : args ≠ [])
    (hfault : fault.isAbort = false)
    (hroutine : ∀ call, call.args = args →
      call.context = (m.workspace.store.command c).context →
      (b.routine I.shell call : Routine σ Int) = .raise fault) :
    (I.dispatch line m).1 = .ok Status.handlerFailed ∧
      (I.dispatch line m).2.workspace.store = m.workspace.store := by
  obtain ⟨re, call, m₁, m₂, outcome, left, hroutineFor, rfl, hcontext, hs₁, hanswer, hleft, hstatus,
    hstore⟩ := I.exists_answer_of_resolves hdepth hresolves hhandler
  rw [answer, hroutineFor, hroutine call rfl hcontext] at hanswer
  obtain ⟨rfl, rfl⟩ := Prod.mk.inj hanswer
  rw [hstatus, hstore]
  exact ⟨settled_of_word (hleft hargs) hfault, hs₁⟩

end Interpreter

/-! ## What the two answer to their words -/

namespace Store

/-- What the handler of `alias` answers and does, called with words. -/
def aliasReply (s : Store) (root : CommandId) : List String → Int × Store
  | _ :: new :: target :: _ => s.aliasAnswer root new target
  | _ => (Status.error, s)

/-- What the handler of `unalias` answers and does. -/
def unaliasReply (s : Store) (root : CommandId) : List String → Int × Store
  | _ :: keyword :: _ => s.unaliasAnswer root keyword
  | _ => (Status.error, s)

end Store

namespace Builtin

open Routine

variable {re : Reentry σ} {depth : Nat} {J : Store → Prop}

/-- A complaint answers an error and changes no command. -/
theorem triple_complain_error (s : Store) (message : String) :
    Triple re depth J (· = s) (complain message : Routine σ Int)
      fun status t => (Status.error, s) = (status, t) :=
  (triple_say ..).bind fun _ => triple_pure fun t ht => by rw [ht]

theorem triple_makeAlias (shell : Shell) (s : Store) {call : Call}
    (hcontext : call.context = .interpreter) :
    Triple re depth J (· = s) (makeAlias.routine shell call : Routine σ Int)
      fun status t => s.aliasReply shell.root call.args = (status, t) := by
  rw [routine, hcontext]
  rcases call.args with _ | ⟨word, _ | ⟨new, _ | ⟨target, rest⟩⟩⟩
  · exact triple_complain_error s _
  · exact triple_complain_error s _
  · exact triple_complain_error s _
  · exact triple_aliasRoutine shell s new target

theorem triple_dropAlias (shell : Shell) (s : Store) {call : Call}
    (hcontext : call.context = .interpreter) :
    Triple re depth J (· = s) (dropAlias.routine shell call : Routine σ Int)
      fun status t => s.unaliasReply shell.root call.args = (status, t) := by
  rw [routine, hcontext]
  rcases call.args with _ | ⟨word, _ | ⟨keyword, rest⟩⟩
  · exact triple_complain_error s _
  · exact triple_complain_error s _
  · exact triple_unaliasRoutine shell s keyword

/-- How many words a built-in command that manages aliases needs, its own included. -/
def aliasArity : Builtin → Nat
  | makeAlias => 3
  | _ => 2

/-- With too few words, the two complain before they look at their context. -/
theorem triple_of_length {b : Builtin} (hb : b = .makeAlias ∨ b = .dropAlias) (shell : Shell)
    (s : Store) {call : Call} (hlength : call.args.length < b.aliasArity) :
    Triple re depth J (· = s) (b.routine shell call : Routine σ Int)
      fun status t => (Status.error, s) = (status, t) := by
  obtain rfl | rfl := hb
  · rw [routine]
    rcases hargs : call.args with _ | ⟨word, _ | ⟨new, _ | ⟨target, rest⟩⟩⟩
    · exact triple_complain_error s _
    · exact triple_complain_error s _
    · exact triple_complain_error s _
    · simp only [hargs, aliasArity, List.length_cons] at hlength
      omega
  · rw [routine]
    rcases hargs : call.args with _ | ⟨word, _ | ⟨keyword, rest⟩⟩
    · exact triple_complain_error s _
    · exact triple_complain_error s _
    · simp only [hargs, aliasArity, List.length_cons] at hlength
      omega

/-- With words enough, they fail if they were not given the interpreter. -/
theorem routine_eq_raise {b : Builtin} (hb : b = .makeAlias ∨ b = .dropAlias) (shell : Shell)
    {call : Call} (hlength : b.aliasArity ≤ call.args.length) {v : Value}
    (hcontext : call.context = .value v) :
    (b.routine shell call : Routine σ Int) = .raise (.lacking v.kind "commands") := by
  obtain rfl | rfl := hb
  · rw [routine, hcontext]
    rcases hargs : call.args with _ | ⟨word, _ | ⟨new, _ | ⟨target, rest⟩⟩⟩
    · simp [hargs, aliasArity] at hlength
    · simp [hargs, aliasArity] at hlength
    · simp [hargs, aliasArity] at hlength
    · rfl
  · rw [routine, hcontext]
    rcases hargs : call.args with _ | ⟨word, _ | ⟨keyword, rest⟩⟩
    · simp [hargs, aliasArity] at hlength
    · simp [hargs, aliasArity] at hlength
    · rfl

end Builtin

/-! ## What they come to -/

namespace Store

variable {s u : Store} {root : CommandId} {new target keyword : String}

/-- What is left of an alias of a command of the top level: the command may have been given a
registry, and the alias is destroyed.  Nothing else has changed. -/
def Leaves (s : Store) (root : CommandId) (target : String) (t : Store) : Prop :=
  ∃ c r e a, c ∈ s.subcommands root ∧ s.keyword c = target ∧ s.Provides c r e ∧ e.Adds a t ∧
    (t.command a).destroyed = true

/-- An alias of a command of the top level was made and has joined the top level. -/
def Enrols (s : Store) (root : CommandId) (new target : String) (u : Store) : Prop :=
  ∃ c q e a t r, c ∈ s.subcommands root ∧ s.keyword c = target ∧ s.Provides c q e ∧ e.Adds a t ∧
    (∀ r, ¬ t.Owns a r) ∧ (t.command a).attributes.isAlias = true ∧ t.keyword a = new ∧
    t.registryOf root = some r ∧ t.Joins r a u

/-- What `alias` comes to: its target is not known, or its keyword is taken, or the alias joins
the top level. -/
inductive Aliases (s : Store) (root : CommandId) (new target : String) : Int → Store → Prop
  | unknown (htarget : ¬ s.Knows root target) : Aliases s root new target Status.notFound s
  | refused {t : Store} (htarget : s.Knows root target) (hnew : s.Knows root new)
    (hleaves : s.Leaves root target t) : Aliases s root new target Status.rejected t
  | enrolled {u : Store} (htarget : s.Knows root target) (hnew : ¬ s.Knows root new)
    (henrols : s.Enrols root new target u) : Aliases s root new target Status.success u

theorem Leaves.subcommands {t : Store} (h : s.Leaves root target t) :
    t.subcommands root = s.subcommands root := by
  obtain ⟨c, r, e, a, hc, -, hprovides, hadds, -⟩ := h
  have hroot := (hprovides.hasCommand root).2 (hasCommand_of_mem_subcommands hc)
  rw [hadds.subcommands hroot, hprovides.subcommands]

theorem Leaves.destroyed {t : Store} (h : s.Leaves root target t) {d : CommandId}
    (hd : s.HasCommand d) : (t.command d).destroyed = (s.command d).destroyed := by
  obtain ⟨c, r, e, a, -, -, hprovides, hadds, -⟩ := h
  rw [hadds.command (hadds.ne ((hprovides.hasCommand d).2 hd)), hprovides.destroyed]

/-- Nothing but the words themselves can make `alias` fail. -/
theorem Reachable.aliases (h : s.Reachable) (root : CommandId) (hnew : new ≠ "")
    (target : String) : s.Aliases root new target (s.aliasAnswer root new target).1
      (s.aliasAnswer root new target).2 := by
  cases hfound : (s.find root target).value with
  | none =>
    rw [aliasAnswer_of_none hfound]
    exact .unknown (find_eq_none_iff_not_knows.1 hfound)
  | some c =>
    obtain ⟨hc, hkeyword⟩ := h.sound.find_eq_some_iff.1 hfound
    obtain ⟨r, hr, hitem⟩ := parent_iff.1 hc
    obtain ⟨hr', hregister⟩ := h.register_makeAlias hr hitem hnew
    have hprovides := provides_ensureRegistry h.sound (h.sound.items hitem)
    have hadds := s.adds_makeAlias c new
    have hnone := s.not_owns_makeAlias c new
    have hlive := s.destroyed_makeAlias_self c new
    have hmade := s.hasCommand_makeAlias c new
    rw [aliasAnswer_of_some hfound, afterAlias]
    obtain hrefused | ⟨hopen, htaken⟩ := register_cases hr' (s.makeAlias c new).1
    · rw [hrefused] at hregister ⊢
      have htaken : s.Knows root new := by simpa using hregister
      have hdead : (((s.makeAlias c new).2.bury (s.makeAlias c new).1).command
          (s.makeAlias c new).1).destroyed = true := by
        rw [command_bury, if_pos ⟨rfl, hmade⟩]
        rfl
      simp only [Bool.false_eq_true, if_false]
      rw [value_destroy_of_live hlive fun r hr => absurd hr (hnone r)]
      exact .refused ⟨c, hc, hkeyword⟩ htaken
        ⟨c, _, _, _, hc, hkeyword, hprovides, hadds.bury hnone, hdead⟩
    · rw [htaken] at hregister ⊢
      have hfree : ¬ s.Knows root new := by simpa using hregister
      have halias : ((s.makeAlias c new).2.command (s.makeAlias c new).1).attributes.isAlias =
          true := by
        rw [command_makeAlias_self]
        exact isAlias_aliasFace _ _
      simp only [if_true]
      exact .enrolled ⟨c, hc, hkeyword⟩ hfree
        ⟨c, _, _, _, _, r, hc, hkeyword, hprovides, hadds, hnone, halias,
          s.keyword_makeAlias_self c new, hr', joins_enlist (hasRegistry_of_live _ hopen) _⟩

theorem Aliases.enrols {status : Int} {t : Store} (h : s.Aliases root new target status t)
    (hstatus : status = Status.success) : s.Enrols root new target t := by
  cases h with
  | unknown htarget => exact absurd hstatus (by decide)
  | refused htarget hnew hleaves => exact absurd hstatus (by decide)
  | enrolled htarget hnew henrols => exact henrols

/-- What `unalias` comes to: its keyword is not known, or belongs to a command that is not an
alias, or the alias is removed. -/
inductive Unaliases (s : Store) (root : CommandId) (keyword : String) : Int → Store → Prop
  | unknown (h : ¬ s.Knows root keyword) : Unaliases s root keyword Status.notFound s
  | refused {c : CommandId} (hc : c ∈ s.subcommands root) (hkeyword : s.keyword c = keyword)
    (hcommand : (s.command c).attributes.isAlias = false) :
    Unaliases s root keyword Status.rejected s
  | dropped {c : CommandId} {r : RegistryId} {t : Store} (hc : c ∈ s.subcommands root)
    (hkeyword : s.keyword c = keyword) (halias : (s.command c).attributes.isAlias = true)
    (hr : s.registryOf root = some r) (hwithdrawn : s.Withdrawn r c t) :
    Unaliases s root keyword Status.success t

theorem Reachable.unaliases (h : s.Reachable) (root : CommandId) (keyword : String) :
    s.Unaliases root keyword (s.unaliasAnswer root keyword).1
      (s.unaliasAnswer root keyword).2 := by
  cases hfound : (s.find root keyword).value with
  | none =>
    rw [unaliasAnswer_of_none hfound]
    exact .unknown (find_eq_none_iff_not_knows.1 hfound)
  | some c =>
    obtain ⟨hc, hkeyword⟩ := h.sound.find_eq_some_iff.1 hfound
    cases halias : (s.command c).attributes.isAlias with
    | false =>
      rw [unaliasAnswer_of_not hfound halias]
      exact .refused hc hkeyword halias
    | true =>
      obtain ⟨r, hr, hitem⟩ := parent_iff.1 hc
      obtain ⟨hdone, hwithdrawn⟩ := h.withdrawn_unregister hr hitem rfl
      rw [unaliasAnswer_of_alias hfound halias, hdone]
      exact .dropped hc hkeyword halias hr hwithdrawn

/-- A new alias is the one that is removed. -/
theorem Enrols.unaliasAnswer (h : s.Enrols root new target u) (hs : s.Sound) (hu : u.Reachable) :
    (u.unaliasAnswer root new).1 = Status.success ∧
      s.Leaves root target (u.unaliasAnswer root new).2 := by
  obtain ⟨c, q, e, a, t, r, hc, hkeyword, hprovides, hadds, hnone, halias, hnew, hr, hjoins⟩ := h
  have hr' : u.registryOf root = some r := by
    rw [registryOf, hjoins.command]
    exact hr
  have hitem : a ∈ u.itemsOf r := by
    rw [itemsOf, hjoins.joined]
    simp
  have hfound : (u.find root new).value = some a := by
    refine hu.sound.find_eq_some_iff.2 ⟨parent_iff.2 ⟨r, hr', hitem⟩, ?_⟩
    rw [Store.keyword, hjoins.command]
    exact hnew
  have halias' : (u.command a).attributes.isAlias = true := by rwa [hjoins.command]
  obtain ⟨hdone, hwithdrawn⟩ := hu.withdrawn_unregister hr' hitem rfl
  have hout : a ∉ e.itemsOf r := by
    rw [hprovides.itemsOf]
    exact fun hmem => hadds.new ((hprovides.hasCommand a).2 (hs.items hmem))
  rw [unaliasAnswer_of_alias hfound halias', hdone]
  exact ⟨rfl, c, q, e, a, hc, hkeyword, hprovides, hadds.withdrawn hout hnone hjoins hwithdrawn,
    hwithdrawn.destroyed_of_drags .refl⟩

/-! ## What the statuses tell -/

/-- What the status of `alias` tells, called with words on a store that then becomes another.
Without success the top level stays, and none of the commands is destroyed. -/
structure AliasOutcome (s : Store) (root : CommandId) (args : List String) (status : Int)
    (t : Store) : Prop where
  error : status = Status.error ↔ args.length < 3
  notFound : ∀ {word new target rest}, args = word :: new :: target :: rest →
    (status = Status.notFound ↔ ¬ s.Knows root target)
  rejected : ∀ {word new target rest}, args = word :: new :: target :: rest →
    (status = Status.rejected ↔ s.Knows root target ∧ s.Knows root new)
  success : ∀ {word new target rest}, args = word :: new :: target :: rest →
    (status = Status.success ↔ s.Knows root target ∧ ¬ s.Knows root new)
  spared : status ≠ Status.success → t.subcommands root = s.subcommands root ∧
    ∀ d, s.HasCommand d → (t.command d).destroyed = (s.command d).destroyed

/-- What the status of `unalias` tells.  An alias that is found can be removed, and without success
nothing changes. -/
structure UnaliasOutcome (s : Store) (root : CommandId) (args : List String) (status : Int)
    (t : Store) : Prop where
  error : status = Status.error ↔ args.length < 2
  notFound : ∀ {word keyword rest}, args = word :: keyword :: rest →
    (status = Status.notFound ↔ ¬ s.Knows root keyword)
  rejected : ∀ {word keyword rest}, args = word :: keyword :: rest →
    (status = Status.rejected ↔ ∃ c ∈ s.subcommands root, s.keyword c = keyword ∧
      (s.command c).attributes.isAlias = false)
  success : ∀ {word keyword rest}, args = word :: keyword :: rest →
    (status = Status.success ↔ ∃ c ∈ s.subcommands root, s.keyword c = keyword ∧
      (s.command c).attributes.isAlias = true)
  notFailed : status ≠ Status.failed
  spared : status ≠ Status.success → t = s

theorem aliasOutcome_of_length {args : List String} (hlength : args.length < 3) :
    s.AliasOutcome root args Status.error s := by
  refine ⟨by simp [hlength], ?_, ?_, ?_, fun _ => ⟨rfl, fun _ _ => rfl⟩⟩ <;>
  · rintro word new target rest rfl
    simp only [List.length_cons] at hlength
    omega

theorem Aliases.outcome {status : Int} {t : Store} (h : s.Aliases root new target status t)
    (word : String) (rest : List String) :
    s.AliasOutcome root (word :: new :: target :: rest) status t := by
  cases h with
  | unknown htarget =>
    refine ⟨by simp [Status.notFound, Status.error], ?_, ?_, ?_,
      fun _ => ⟨rfl, fun _ _ => rfl⟩⟩ <;>
    · rintro _ _ _ _ ⟨⟩
      simp [htarget, Status.notFound, Status.rejected, Status.success]
  | refused htarget hnew hleaves =>
    refine ⟨by simp [Status.rejected, Status.error], ?_, ?_, ?_,
      fun _ => ⟨hleaves.subcommands, fun _ => hleaves.destroyed⟩⟩ <;>
    · rintro _ _ _ _ ⟨⟩
      simp [htarget, hnew, Status.notFound, Status.rejected, Status.success]
  | enrolled htarget hnew henrols =>
    refine ⟨by simp [Status.success, Status.error], ?_, ?_, ?_, fun hne => absurd rfl hne⟩ <;>
    · rintro _ _ _ _ ⟨⟩
      simp [htarget, hnew, Status.notFound, Status.rejected, Status.success]

theorem Reachable.aliasOutcome (h : s.Reachable) (root : CommandId) {args : List String}
    (hargs : ∀ word ∈ args, word ≠ "") :
    s.AliasOutcome root args (s.aliasReply root args).1 (s.aliasReply root args).2 := by
  match args with
  | [] => exact aliasOutcome_of_length (by simp)
  | [_] => exact aliasOutcome_of_length (by simp)
  | [_, _] => exact aliasOutcome_of_length (by simp)
  | word :: new :: target :: rest =>
    exact (h.aliases root (hargs new (by simp)) target).outcome word rest

theorem Sound.eq_of_keyword (hs : s.Sound) {c d : CommandId} (hc : c ∈ s.subcommands root)
    (hd : d ∈ s.subcommands root) (hkeyword : s.keyword c = s.keyword d) : c = d := by
  have hfirst := hs.find_eq_some_iff.2 ⟨hc, hkeyword⟩
  have hsecond := hs.find_eq_some_iff.2 ⟨hd, rfl⟩
  exact Option.some.inj (hfirst.symm.trans hsecond)

theorem unaliasOutcome_of_length {args : List String} (hlength : args.length < 2) :
    s.UnaliasOutcome root args Status.error s := by
  refine ⟨by simp [hlength], ?_, ?_, ?_, by decide, fun _ => rfl⟩ <;>
  · rintro word keyword rest rfl
    simp only [List.length_cons] at hlength
    omega

theorem Unaliases.outcome {status : Int} {t : Store} (h : s.Unaliases root keyword status t)
    (hs : s.Sound) (word : String) (rest : List String) :
    s.UnaliasOutcome root (word :: keyword :: rest) status t := by
  -- The command with the keyword is one, so it is an alias or it is not.
  have hflag : ∀ {c}, c ∈ s.subcommands root → s.keyword c = keyword → ∀ flag,
      (∃ d ∈ s.subcommands root, s.keyword d = keyword ∧
        (s.command d).attributes.isAlias = flag) ↔ (s.command c).attributes.isAlias = flag := by
    refine fun {c} hc hkeyword flag => ⟨?_, fun hcommand => ⟨c, hc, hkeyword, hcommand⟩⟩
    rintro ⟨d, hd, hkeyword', hcommand⟩
    rwa [← hs.eq_of_keyword hd hc (hkeyword'.trans hkeyword.symm)]
  cases h with
  | unknown hnone =>
    have hnot : ∀ flag, ¬ ∃ c ∈ s.subcommands root, s.keyword c = keyword ∧
        (s.command c).attributes.isAlias = flag := by
      rintro flag ⟨c, hc, hkeyword, -⟩
      exact hnone ⟨c, hc, hkeyword⟩
    refine ⟨by simp [Status.notFound, Status.error], ?_, ?_, ?_, by decide, fun _ => rfl⟩ <;>
    · rintro _ _ _ ⟨⟩
      simp only [hnone, hnot]
      decide
  | refused hc hkeyword hcommand =>
    refine ⟨by simp [Status.rejected, Status.error], ?_, ?_, ?_, by decide, fun _ => rfl⟩
    · rintro _ _ _ ⟨⟩
      exact iff_of_false (by decide) fun hnot => hnot ⟨_, hc, hkeyword⟩
    · rintro _ _ _ ⟨⟩
      exact iff_of_true rfl ⟨_, hc, hkeyword, hcommand⟩
    · rintro _ _ _ ⟨⟩
      rw [hflag hc hkeyword, hcommand]
      decide
  | dropped hc hkeyword halias hr hwithdrawn =>
    refine ⟨by simp [Status.success, Status.error], ?_, ?_, ?_, by decide,
      fun hne => absurd rfl hne⟩
    · rintro _ _ _ ⟨⟩
      exact iff_of_false (by decide) fun hnot => hnot ⟨_, hc, hkeyword⟩
    · rintro _ _ _ ⟨⟩
      rw [hflag hc hkeyword, halias]
      decide
    · rintro _ _ _ ⟨⟩
      exact iff_of_true rfl ⟨_, hc, hkeyword, halias⟩

theorem Reachable.unaliasOutcome (h : s.Reachable) (root : CommandId) (args : List String) :
    s.UnaliasOutcome root args (s.unaliasReply root args).1 (s.unaliasReply root args).2 := by
  match args with
  | [] => exact unaliasOutcome_of_length (by simp)
  | [_] => exact unaliasOutcome_of_length (by simp)
  | word :: keyword :: rest =>
    exact (h.unaliases root keyword).outcome h.sound word rest

end Store

/-! ## Lines -/

namespace Interpreter

variable {I : Interpreter σ}

theorem mem_words_of_resolves {s : Store} {root c : CommandId} {words args : List String}
    (h : s.Resolves root words c args) {word : String} (hword : word ∈ args) : word ∈ words := by
  rw [h.args] at hword
  exact List.mem_of_mem_drop hword

/-- A line that comes to the handler of `unalias` with the keyword of a new alias takes it back. -/
theorem dispatch_of_enrols {s : Store} {m : Machine σ} {line word new target : String}
    {c : CommandId} {rest : List String}
    (henrols : s.Enrols I.shell.root new target m.workspace.store) (hs : s.Sound)
    (hm : m.workspace.store.Reachable) (hdepth : m.depth < I.shell.maxDepth)
    (hresolves : m.workspace.store.Resolves I.shell.root (I.shell.rules.tokenize line).value c
      (word :: new :: rest))
    (hhandler : (m.workspace.store.command c).handler = some (.builtin .dropAlias))
    (hcontext : (m.workspace.store.command c).context = .interpreter) :
    (I.dispatch line m).1 = .ok Status.success ∧
      (I.dispatch line m).2.workspace.store.subcommands I.shell.root = s.subcommands I.shell.root ∧
      s.Leaves I.shell.root target (I.dispatch line m).2.workspace.store := by
  obtain ⟨hdone, hleaves⟩ := henrols.unaliasAnswer hs hm
  obtain ⟨hstatus, hstore⟩ := I.dispatch_of_resolves hdepth hresolves hhandler
    fun re depth call hcall hcontext' =>
      hcall ▸ Builtin.triple_dropAlias I.shell _ (hcontext'.trans hcontext)
  change _ = (m.workspace.store.unaliasAnswer I.shell.root new).2 at hstore
  rw [hstore, hstatus]
  exact ⟨congrArg Except.ok hdone, hleaves.subcommands, hleaves⟩

/-- **What lines with `alias` and `unalias` do.**  Take any state that operations and lines lead
to from a shell with the built-in commands, below the limit on nesting, and a line that comes to
one of the two handlers, under whatever keyword, in a command whose context is the interpreter.
With the handler of `alias`, the status tells whether there are too few words, the target is no
command of the top level, the new keyword is taken there, or all is well; without success, the top
level stays and no command is destroyed.  After a success, any line that comes to the handler of
`unalias` with the new keyword succeeds; it gives back the top level, and nothing is left but the
destroyed alias and an empty registry that the target may have got.  With the handler of
`unalias`, the status tells whether the keyword is missing, is not known at the top level, belongs
to a command that is not an alias, or all is well; the removal itself never fails, and without
success nothing changes.

An application may register one of the handlers in a command with another context.  This one
answers that words are missing, or fails, and nothing changes. -/
theorem dispatch_aliasOutcome {m : Machine σ} (h : I.Attained m)
    (hdepth : m.depth < I.shell.maxDepth) {line : String} {c : CommandId} {args : List String}
    (hresolves : m.workspace.store.Resolves I.shell.root (I.shell.rules.tokenize line).value c
      args) :
    ((m.workspace.store.command c).handler = some (.builtin .makeAlias) →
      (m.workspace.store.command c).context = .interpreter →
      ∃ status, (I.dispatch line m).1 = .ok status ∧
        m.workspace.store.AliasOutcome I.shell.root args status
          (I.dispatch line m).2.workspace.store ∧
        (status = Status.success → ∀ {word new target rest},
          args = word :: new :: target :: rest → ∀ {line' c' word' rest'},
          (I.dispatch line m).2.workspace.store.Resolves I.shell.root
            (I.shell.rules.tokenize line').value c' (word' :: new :: rest') →
          ((I.dispatch line m).2.workspace.store.command c').handler =
            some (.builtin .dropAlias) →
          ((I.dispatch line m).2.workspace.store.command c').context = .interpreter →
          (I.dispatch line' (I.dispatch line m).2).1 = .ok Status.success ∧
          (I.dispatch line' (I.dispatch line m).2).2.workspace.store.subcommands I.shell.root =
            m.workspace.store.subcommands I.shell.root ∧
          m.workspace.store.Leaves I.shell.root target
            (I.dispatch line' (I.dispatch line m).2).2.workspace.store)) ∧
    ((m.workspace.store.command c).handler = some (.builtin .dropAlias) →
      (m.workspace.store.command c).context = .interpreter →
      ∃ status, (I.dispatch line m).1 = .ok status ∧
        m.workspace.store.UnaliasOutcome I.shell.root args status
          (I.dispatch line m).2.workspace.store) ∧
    ∀ b, b = .makeAlias ∨ b = .dropAlias →
      (m.workspace.store.command c).handler = some (.builtin b) →
      ∀ v, (m.workspace.store.command c).context = .value v →
        (I.dispatch line m).1 = .ok
          (if args.length < b.aliasArity then Status.error else Status.handlerFailed) ∧
        (I.dispatch line m).2.workspace.store = m.workspace.store := by
  have hs := h.reachable
  have hargs : ∀ word ∈ args, word ≠ "" := fun word hword =>
    LineRules.ne_empty_of_mem_tokenize (mem_words_of_resolves hresolves hword)
  refine ⟨fun hhandler hcontext => ?_, fun hhandler hcontext => ?_, fun b hb hhandler v hv => ?_⟩
  · obtain ⟨hstatus, hstore⟩ := I.dispatch_of_resolves hdepth hresolves hhandler
      fun re depth call hcall hcontext' =>
        hcall ▸ Builtin.triple_makeAlias I.shell _ (hcontext'.trans hcontext)
    refine ⟨_, hstatus, hstore ▸ hs.aliasOutcome I.shell.root hargs, ?_⟩
    rintro hsuccess word new target rest rfl line' c' word' rest' hresolves' hhandler' hinterpreter
    have henrols := (hs.aliases I.shell.root (hargs new (by simp)) target).enrols hsuccess
    have hafter : (I.dispatch line m).2.workspace.store.Reachable := by
      rw [hstore]
      exact hs.later (Builtin.keeps_aliasAnswer (Store.bears_later hs _) .refl new target)
    have hdepth' : (I.dispatch line m).2.depth < I.shell.maxDepth := by
      rwa [(I.isDispatch_dispatch line m).1]
    exact dispatch_of_enrols (hstore ▸ henrols) hs.sound hafter hdepth' hresolves' hhandler'
      hinterpreter
  · obtain ⟨hstatus, hstore⟩ := I.dispatch_of_resolves hdepth hresolves hhandler
      fun re depth call hcall hcontext' =>
        hcall ▸ Builtin.triple_dropAlias I.shell _ (hcontext'.trans hcontext)
    exact ⟨_, hstatus, hstore ▸ hs.unaliasOutcome I.shell.root args⟩
  · split_ifs with hlength
    · exact I.dispatch_of_resolves hdepth hresolves hhandler fun re depth call hcall _ =>
        Builtin.triple_of_length hb I.shell _ (hcall ▸ hlength)
    · have hne : args ≠ [] := by
        rintro rfl
        obtain rfl | rfl := hb <;> exact hlength (by decide)
      exact I.dispatch_of_raises hdepth hresolves hhandler hne rfl fun call hcall hcontext =>
        Builtin.routine_eq_raise hb I.shell (hcall ▸ not_lt.1 hlength) (hcontext.trans hv)

end Interpreter

/-! ## An alias in a new shell -/

/-- The command for the log is given another name. -/
theorem aliasAnswer_fresh : Store.fresh.aliasAnswer ⟨0⟩ "l" "log" =
    (Status.success, (Store.fresh.makeAlias ⟨4⟩ "l").2.enlist ⟨0⟩ ⟨10⟩) := by
  have hfound : (Store.fresh.find ⟨0⟩ "log").value = some ⟨4⟩ := by decide +kernel
  have hr : Store.fresh.registryOf ⟨0⟩ = some ⟨0⟩ := by decide +kernel
  have hitem : ⟨4⟩ ∈ Store.fresh.itemsOf ⟨0⟩ := by decide +kernel
  have hfree : ¬ Store.fresh.Knows ⟨0⟩ "l" := by decide +kernel
  obtain ⟨hr', hregister⟩ :=
    Store.reachable_fresh.register_makeAlias hr hitem (by decide : "l" ≠ "")
  have htrue := hregister.2 hfree
  obtain hrefused | ⟨-, htaken⟩ := Store.register_cases hr' (Store.fresh.makeAlias ⟨4⟩ "l").1
  · rw [hrefused] at htrue
    cases htrue
  · rw [Store.aliasAnswer_of_some hfound, Store.afterAlias, htaken]
    rfl

theorem store_plainStart : plainStart.workspace.store = Store.fresh :=
  congrArg Prod.snd (value_registerBuiltins rfl)

/-- A line of the plain shell comes to the command that its first word finds. -/
theorem resolves_plain {s : Store} {line word : String} {rest : List String} {c : CommandId}
    (hwords : (plain.shell.rules.tokenize line).value = word :: rest)
    (hfind : (s.find ⟨0⟩ word).value = some c) (hc : s.delegates c = false) :
    s.Resolves ⟨0⟩ (plain.shell.rules.tokenize line).value c (word :: rest) := by
  rw [hwords]
  exact Store.resolves_of_find hfind hc rest

theorem resolves_alias_log : plainStart.workspace.store.Resolves ⟨0⟩
    (plain.shell.rules.tokenize "alias l log").value ⟨2⟩ ["alias", "l", "log"] := by
  rw [store_plainStart]
  exact resolves_plain (by decide +kernel) (by decide +kernel) (by decide +kernel)

theorem handler_alias :
    (plainStart.workspace.store.command ⟨2⟩).handler = some (.builtin .makeAlias) := by
  rw [store_plainStart]
  decide +kernel

theorem context_alias : (plainStart.workspace.store.command ⟨2⟩).context = .interpreter := by
  rw [store_plainStart]
  rfl

theorem store_alias_log : (plain.dispatch "alias l log" plainStart).2.workspace.store =
    (Store.fresh.makeAlias ⟨4⟩ "l").2.enlist ⟨0⟩ ⟨10⟩ := by
  obtain ⟨-, hstore⟩ := plain.dispatch_of_resolves (by decide) resolves_alias_log handler_alias
    fun re depth call hcall hcontext =>
      hcall ▸ Builtin.triple_makeAlias plain.shell _ (hcontext.trans context_alias)
  rw [hstore, store_plainStart]
  exact congrArg Prod.snd aliasAnswer_fresh

/-- In a new shell, the command for the log is given another name, which is taken back; and
`help`, which is not an alias, cannot be removed. -/
theorem plain_aliasOutcome :
    plain.Attained plainStart ∧ plainStart.depth < plain.shell.maxDepth ∧
    plainStart.workspace.store.Resolves ⟨0⟩ (plain.shell.rules.tokenize "alias l log").value ⟨2⟩
      ["alias", "l", "log"] ∧
    plain.Attained (plain.dispatch "alias l log" plainStart).2 ∧
    (plain.dispatch "alias l log" plainStart).1 = .ok Status.success ∧
    (plain.dispatch "unalias l" (plain.dispatch "alias l log" plainStart).2).1 =
      .ok Status.success ∧
    (plain.dispatch "unalias l"
      (plain.dispatch "alias l log" plainStart).2).2.workspace.store.subcommands ⟨0⟩ =
      plainStart.workspace.store.subcommands ⟨0⟩ ∧
    (plain.dispatch "unalias help" plainStart).1 = .ok Status.rejected := by
  have hattained : plain.Attained plainStart := .fresh ⟨rfl, rfl⟩
  have hdepth : plainStart.depth < plain.shell.maxDepth := by decide
  have hhelp : plainStart.workspace.store.Resolves ⟨0⟩
      (plain.shell.rules.tokenize "unalias help").value ⟨3⟩ ["unalias", "help"] := by
    rw [store_plainStart]
    exact resolves_plain (by decide +kernel) (by decide +kernel) (by decide +kernel)
  have hback : (plain.dispatch "alias l log" plainStart).2.workspace.store.Resolves ⟨0⟩
      (plain.shell.rules.tokenize "unalias l").value ⟨3⟩ ["unalias", "l"] := by
    rw [store_alias_log]
    exact resolves_plain (by decide +kernel) (by decide +kernel) (by decide +kernel)
  obtain ⟨status, hstatus, houtcome, hundone⟩ :=
    (Interpreter.dispatch_aliasOutcome hattained hdepth resolves_alias_log).1 handler_alias
      context_alias
  have hsuccess : status = Status.success :=
    (houtcome.success rfl).2 (by rw [store_plainStart]; decide +kernel)
  obtain ⟨hdone, hsame, -⟩ :=
    hundone hsuccess rfl hback (by rw [store_alias_log]; decide +kernel)
      (by rw [store_alias_log]; rfl)
  obtain ⟨status', hstatus', houtcome'⟩ :=
    (Interpreter.dispatch_aliasOutcome hattained hdepth hhelp).2.1
      (by rw [store_plainStart]; decide +kernel) (by rw [store_plainStart]; rfl)
  have hrejected : status' = Status.rejected :=
    (houtcome'.rejected rfl).2 (by rw [store_plainStart]; decide +kernel)
  exact ⟨hattained, hdepth, resolves_alias_log,
    .dispatch hattained (Interpreter.operates_launch _ _) _, hsuccess ▸ hstatus, hdone, hsame,
    hrejected ▸ hstatus'⟩

end CommandShell
