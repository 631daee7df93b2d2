import CommandShell.Proofs.Store.Change
import CommandShell.Store.Copy

/-!
# Operations on commands and what they are made of

A store is reached from the empty one by operations on commands that were made before:
making a command, adding flags, registering, unregistering, destroying, copying and
making an alias.  Each of them is a chain of elementary changes, so that a property
which elementary changes keep holds in every store that can be reached.
-/

namespace CommandShell

open Relation

/-! ## The operations -/

/-- An operation on commands. -/
inductive Operation where
  /-- Makes a command, registered nowhere. -/
  | create (face : Face)
  /-- Adds flags to a command. -/
  | addAttributes (c : CommandId) (flags : Int)
  /-- Registers `child` under `parent`. -/
  | register (parent child : CommandId)
  /-- Unregisters the sub-command of `parent` that has the keyword of `child`. -/
  | unregister (parent child : CommandId)
  /-- Destroys a command. -/
  | destroy (c : CommandId)
  /-- Copies a command. -/
  | copy (c : CommandId)
  /-- Makes an alias of a command, registered nowhere. -/
  | makeAlias (c : CommandId) (keyword : String)

namespace Operation

/-- The commands that an operation is applied to. -/
def operands : Operation → List CommandId
  | create _ => []
  | addAttributes c _ => [c]
  | register parent child => [parent, child]
  | unregister parent child => [parent, child]
  | destroy c => [c]
  | copy c => [c]
  | makeAlias c _ => [c]

/-- The store after an operation. -/
def perform (s : Store) : Operation → Store
  | create face => (s.create face).2
  | addAttributes c flags => s.addAttributes c flags
  | register parent child => (s.register parent child).value.2
  | unregister parent child => (s.unregister parent child).value.2
  | destroy c => (s.destroy c).value
  | copy c => (s.copy c).2
  | makeAlias c keyword => (s.makeAlias c keyword).2

end Operation

namespace Store

/-- One operation, on commands that were made before: registered or not, destroyed or
not. -/
def Step (s t : Store) : Prop :=
  ∃ op : Operation, (∀ c ∈ op.operands, s.HasCommand c) ∧ op.perform s = t

/-- Operations on commands lead from one store to the other. -/
def Later : Store → Store → Prop := ReflTransGen Step

/-- The stores that operations on commands lead to. -/
def Reachable (s : Store) : Prop := ReflTransGen Step {} s

/-- A chain of elementary changes. -/
def Changes : Store → Store → Prop := ReflTransGen Change

variable {s t : Store}

theorem Changes.hasCommand (h : Changes s t) {c : CommandId} (hc : s.HasCommand c) :
    t.HasCommand c := by
  induction h with
  | refl => exact hc
  | tail _ hchange ih => exact hchange.hasCommand ih

theorem Changes.hasRegistry (h : Changes s t) {r : RegistryId} (hr : s.HasRegistry r) :
    t.HasRegistry r := by
  induction h with
  | refl => exact hr
  | tail _ hchange ih => exact hchange.hasRegistry ih

theorem Changes.keyword (h : Changes s t) {c : CommandId} (hc : s.HasCommand c) :
    t.keyword c = s.keyword c := by
  induction h with
  | refl => rfl
  | tail hchanges hchange ih => rw [hchange.keyword (Changes.hasCommand hchanges hc), ih]

/-! ## Destroying -/

/-- One of the commands is destroyed that are not yet. -/
def Burial (s t : Store) : Prop :=
  ∃ c, (s.command c).destroyed = false ∧ t = s.bury c

theorem bury_of_owned {c : CommandId} {r : RegistryId}
    (hc : (s.command c).children = some (.owned r)) :
    s.bury c = if (s.registry r).destroyed then s.setCommand c (s.command c).destroy
      else (s.setCommand c (s.command c).destroy).closeRegistry r := by
  rw [bury, hc]

theorem bury_of_not_owned {c : CommandId} (hc : ∀ r, (s.command c).children ≠ some (.owned r)) :
    s.bury c = s.setCommand c (s.command c).destroy := by
  unfold bury
  split
  next r hr => exact absurd hr (hc r)
  next => rfl

/-- Destroying commands buries them and others one by one. -/
theorem burials_destroyAll (s : Store) (pending : List CommandId) :
    ReflTransGen Burial s (s.destroyAll pending).value := by
  fun_induction destroyAll s pending with
  | case1 s => exact .refl
  | case2 s c rest hdead ih => simpa using ih
  | case3 s c rest hlive r hr hclosed ih =>
    refine ReflTransGen.head ⟨c, by simpa using hlive, ?_⟩ (by simpa using ih)
    rw [bury_of_owned hr, if_pos hclosed]
  | case4 s c rest hlive r hr hopen ih =>
    refine ReflTransGen.head ⟨c, by simpa using hlive, ?_⟩ ih
    rw [bury_of_owned hr, if_neg hopen]
  | case5 s c rest hlive hr ih =>
    refine ReflTransGen.head ⟨c, by simpa using hlive, ?_⟩ ih
    rw [bury_of_not_owned hr]

theorem changes_destroy (s : Store) (c : CommandId) : Changes s (s.destroy c).value := by
  refine ReflTransGen.mono ?_ _ _ (burials_destroyAll s [c])
  rintro s _ ⟨d, hd, rfl⟩
  exact .bury hd

/-! ## Registering and unregistering -/

/-- What `register` answers, without its notes. -/
theorem value_register (s : Store) (parent child : CommandId) :
    (s.register parent child).value =
      if (s.keyword child).isEmpty ∨ (s.command child).destroyed then (false, s)
      else
        let (r, t) := s.ensureRegistry parent
        if child = parent ∨ t.reaches child r ∨ (t.findIn r (s.keyword child)).isSome ∨
            (t.registry r).destroyed then (false, t)
        else (true, t.enlist r child) := by
  unfold register append
  obtain ⟨r, t⟩ := s.ensureRegistry parent
  dsimp only
  split_ifs <;> first | rfl | simp_all

/-- Under a command with a registry, a command is refused and nothing changes, or it joins
the registry. -/
theorem register_cases {parent : CommandId} {r : RegistryId} (hr : s.registryOf parent = some r)
    (child : CommandId) :
    (s.register parent child).value = (false, s) ∨
      (s.registry r).destroyed = false ∧
        (s.register parent child).value = (true, s.enlist r child) := by
  rw [value_register, ensureRegistry_of_some _ hr]
  dsimp only
  split_ifs with hchild hrefused
  · exact .inl rfl
  · exact .inl rfl
  · simp only [not_or, Bool.not_eq_true] at hrefused
    exact .inr ⟨hrefused.2.2.2, rfl⟩

/-- What `unregister` answers, without its notes. -/
theorem value_unregister (s : Store) (parent child : CommandId) :
    (s.unregister parent child).value =
      match (s.registryOf parent).bind fun r => (s.findIn r (s.keyword child)).bind fun c =>
          (s.position? r c).map fun position => (r, position, c) with
      | some (r, position, c) => (true, ((s.strike r position).destroy c).value)
      | none => (false, s) := by
  unfold unregister
  dsimp only
  generalize (s.registryOf parent).bind _ = found
  cases found with
  | none => rfl
  | some found => rfl

theorem changes_ensureRegistry {c : CommandId} (hc : s.HasCommand c) :
    Changes s (s.ensureRegistry c).2 := by
  cases h : s.registryOf c with
  | none =>
    rw [ensureRegistry_of_none _ h]
    exact .single (.furnish hc h)
  | some r =>
    rw [ensureRegistry_of_some _ h]
    exact .refl

theorem keyword_ensureRegistry (s : Store) (c d : CommandId) :
    (s.ensureRegistry c).2.keyword d = s.keyword d := by
  cases h : s.registryOf c with
  | none => simp [ensureRegistry_of_none _ h]
  | some r => simp [ensureRegistry_of_some _ h]

theorem destroyed_ensureRegistry (s : Store) (c d : CommandId) :
    ((s.ensureRegistry c).2.command d).destroyed = (s.command d).destroyed := by
  cases h : s.registryOf c with
  | none =>
    rw [ensureRegistry_of_none _ h, furnish, command_setCommand]
    split_ifs with hd
    · rw [hd.1]
    · rfl
  | some r => rw [ensureRegistry_of_some _ h]

theorem findIn_eq_none_iff {r : RegistryId} {keyword : String} :
    s.findIn r keyword = none ↔ ∀ d ∈ s.itemsOf r, s.keyword d ≠ keyword := by
  simp [findIn]

/-- A command without a registry leads nowhere. -/
theorem reaches_of_none {c : CommandId} (h : s.registryOf c = none) (r : RegistryId) :
    s.reaches c r = false := by
  rw [reaches, searchFor, h]
  dsimp only
  rw [searchFor]

/-- A command without a registry joins the registry of its parent if its keyword is free
there. -/
theorem value_register_of_bare {parent child : CommandId} {r : RegistryId}
    (hensure : s.ensureRegistry parent = (r, t)) (hnamed : s.keyword child ≠ "")
    (hlive : (s.command child).destroyed = false) (hne : child ≠ parent)
    (hbare : t.registryOf child = none)
    (hfree : ∀ d ∈ t.itemsOf r, t.keyword d ≠ s.keyword child)
    (hopen : (t.registry r).destroyed = false) :
    (s.register parent child).value = (true, t.enlist r child) := by
  rw [value_register, if_neg (by simp [hnamed, hlive]), hensure]
  dsimp only
  rw [if_neg]
  simp [hne, reaches_of_none hbare, findIn_eq_none_iff.2 hfree, hopen]

theorem changes_register {parent : CommandId} (hparent : s.HasCommand parent)
    (child : CommandId) : Changes s (s.register parent child).value.2 := by
  have hensure := changes_ensureRegistry hparent
  have hkeyword := s.keyword_ensureRegistry parent child
  have hdestroyed := s.destroyed_ensureRegistry parent child
  rw [value_register]
  revert hensure hkeyword hdestroyed
  generalize s.ensureRegistry parent = ensured
  obtain ⟨r, t⟩ := ensured
  intro hensure hkeyword hdestroyed
  dsimp only at hensure hkeyword hdestroyed ⊢
  split_ifs with hchild hrefused
  · exact .refl
  · exact hensure
  · -- Nothing speaks against it: these are the conditions of the elementary change.
    simp only [not_or, Bool.not_eq_true, Option.isSome_eq_false_iff] at hchild hrefused
    obtain ⟨hnamed, hlive⟩ := hchild
    obtain ⟨-, hreaches, hfree, hopen⟩ := hrefused
    refine hensure.tail (.enlist hopen (hdestroyed.trans hlive) ?_ ?_ ?_)
    · rw [hkeyword]
      simpa using hnamed
    · rw [hkeyword]
      exact findIn_eq_none_iff.1 (by simpa using hfree)
    · rw [← reaches_iff (t.hasRegistry_of_live hopen), hreaches]
      exact Bool.false_ne_true

theorem changes_unregister (s : Store) (parent child : CommandId) :
    Changes s (s.unregister parent child).value.2 := by
  rw [value_unregister]
  split
  next r position c _ => exact (changes_destroy _ c).head (.strike r position)
  next => exact .refl

theorem isAlias_aliasFace (face : Face) (keyword : String) :
    (aliasFace face keyword).attributes.isAlias = true := by
  unfold aliasFace
  dsimp only
  split_ifs <;> decide

theorem changes_makeAlias {c : CommandId} (hs : s.Sound) (hc : s.HasCommand c)
    (keyword : String) : Changes s (s.makeAlias c keyword).2 := by
  have hface := isAlias_aliasFace (s.command c).toFace keyword
  have hensure := changes_ensureRegistry hc
  have href : (s.ensureRegistry c).2.HasRegistry (s.ensureRegistry c).1 := by
    cases h : s.registryOf c with
    | none =>
      rw [ensureRegistry_of_none _ h]
      simp [HasRegistry, furnish, addRegistry, setCommand, nextRegistry]
    | some r =>
      rw [ensureRegistry_of_some _ h]
      exact hs.refs h
  exact hensure.tail (.borrow href hface)

end Store

/-! ## Copying -/

namespace Cutting

/-- The command at the top. -/
def face : Cutting → Face
  | bare face => face
  | borrowing face _ => face
  | owning face _ => face

/-- A cutting that can be planted in a sound store and leaves it sound. -/
inductive Fits (s : Store) : Cutting → Prop
  | bare (face : Face) : Fits s (.bare face)
  | borrowing {face : Face} {r : RegistryId} (hr : s.HasRegistry r)
    (hface : face.attributes.isAlias = true) : Fits s (.borrowing face r)
  | owning (face : Face) {items : List Cutting} (hnamed : ∀ i ∈ items, i.face.keyword ≠ "")
    (hdistinct : (items.map fun i => i.face.keyword).Nodup) (hitems : ∀ i ∈ items, Fits s i) :
    Fits s (.owning face items)

theorem Fits.mono {s t : Store} (hst : ∀ r, s.HasRegistry r → t.HasRegistry r) {k : Cutting}
    (h : k.Fits s) : k.Fits t := by
  induction h with
  | bare face => exact .bare face
  | borrowing hr hface => exact .borrowing (hst _ hr) hface
  | owning face hnamed hdistinct _ ih => exact .owning face hnamed hdistinct ih

end Cutting

namespace Store

variable {s t : Store}

@[simp] theorem face_cuttingWithin (s : Store) (levels : Nat) (c : CommandId) :
    (s.cuttingWithin levels c).face = (s.command c).toFace := by
  unfold cuttingWithin
  dsimp only
  split
  · rfl
  · rfl
  · split <;> rfl

theorem Sound.fits_cuttingWithin (hs : s.Sound) (levels : Nat) (c : CommandId) :
    (s.cuttingWithin levels c).Fits s := by
  induction levels generalizing c with
  | zero =>
    unfold cuttingWithin
    dsimp only
    split
    next => exact .bare _
    next r hr => exact .borrowing (hs.refs (s.registryOf_of_children hr)) (hs.aliased hr)
    next r hr => exact .owning _ (by simp) (by simp) (by simp)
  | succ levels ih =>
    unfold cuttingWithin
    dsimp only
    split
    next => exact .bare _
    next r hr => exact .borrowing (hs.refs (s.registryOf_of_children hr)) (hs.aliased hr)
    next r hr =>
      refine .owning _ ?_ ?_ ?_
      · simpa [keyword] using fun d (hd : d ∈ s.itemsOf r) => hs.named hd
      · have hkeyword : (fun i : Cutting => i.face.keyword) ∘ s.cuttingWithin levels =
            s.keyword := by
          funext d
          simp [keyword]
        rw [List.map_map, hkeyword]
        exact hs.distinct r
      · simpa using fun d _ => ih d

mutual

/-- Planting a cutting is a chain of elementary changes that ends with a command which
shows what the top of the cutting shows. -/
theorem changes_plant (s : Store) : ∀ {k : Cutting}, k.Fits s →
    Changes s (s.plant k).2 ∧ (s.plant k).2.HasCommand (s.plant k).1 ∧
      (s.plant k).2.keyword (s.plant k).1 = k.face.keyword
  | .bare face, _ => by
    refine ⟨.single (.create face), ?_, ?_⟩
    · simp [plant, addCommand, HasCommand]
    · exact (keyword_addCommand s _ _).trans (if_pos rfl)
  | .borrowing face r, .borrowing hr hface => by
    refine ⟨.single (.borrow hr hface), ?_, ?_⟩
    · simp [plant, addCommand, HasCommand]
    · exact (keyword_addCommand s _ _).trans (if_pos rfl)
  | .owning face items, .owning _ hnamed hdistinct hitems => by
    obtain ⟨hchanges, hhas, hkeywords⟩ := changes_plantAll s hitems
    refine ⟨hchanges.tail (.found face hhas ?_ (hkeywords ▸ hdistinct)), ?_, ?_⟩
    · intro c hc
      have hmem := List.mem_map_of_mem (f := (s.plantAll items).2.keyword) hc
      rw [hkeywords, List.mem_map] at hmem
      obtain ⟨i, hi, heq⟩ := hmem
      exact heq ▸ hnamed i hi
    · simp [plant, addCommand, addRegistry, HasCommand]
    · exact (keyword_addCommand _ _ _).trans (if_pos rfl)

/-- Planting cuttings one after another is a chain of elementary changes. -/
theorem changes_plantAll (s : Store) : ∀ {ks : List Cutting}, (∀ k ∈ ks, k.Fits s) →
    Changes s (s.plantAll ks).2 ∧ (∀ c ∈ (s.plantAll ks).1, (s.plantAll ks).2.HasCommand c) ∧
      (s.plantAll ks).1.map (s.plantAll ks).2.keyword = ks.map fun k => k.face.keyword
  | [], _ => ⟨.refl, by simp [plantAll], by simp [plantAll]⟩
  | k :: ks, hfits => by
    obtain ⟨hfirst, hhas, hkeyword⟩ := changes_plant s (hfits k (by simp))
    have hfits' : ∀ i ∈ ks, i.Fits (s.plant k).2 := fun i hi =>
      (hfits i (by simp [hi])).mono fun _ => hfirst.hasRegistry
    obtain ⟨hrest, hhas', hkeywords⟩ := changes_plantAll (s.plant k).2 hfits'
    refine ⟨hfirst.trans hrest, ?_, ?_⟩
    · simp only [plantAll, List.mem_cons, forall_eq_or_imp]
      exact ⟨hrest.hasCommand hhas, hhas'⟩
    · simp only [plantAll, List.map_cons, hkeywords, hrest.keyword hhas, hkeyword]

end

theorem changes_copy (hs : s.Sound) (c : CommandId) : Changes s (s.copy c).2 :=
  (changes_plant s (hs.fits_cuttingWithin _ c)).1

/-! ## Every operation -/

end Store

/-- **Every operation is a chain of elementary changes.** -/
theorem Operation.changes {s : Store} (hs : s.Sound) (op : Operation)
    (hop : ∀ c ∈ op.operands, s.HasCommand c) : s.Changes (op.perform s) := by
  cases op with
  | create face => exact .single (.create face)
  | addAttributes c flags => exact .single (.mark c flags)
  | register parent child => exact Store.changes_register (hop parent (by simp [operands])) child
  | unregister parent child => exact Store.changes_unregister s parent child
  | destroy c => exact Store.changes_destroy s c
  | copy c => exact Store.changes_copy hs c
  | makeAlias c keyword => exact Store.changes_makeAlias hs (hop c (by simp [operands])) keyword

namespace Store

variable {s t : Store}

theorem Sound.of_changes (hs : s.Sound) (h : Changes s t) : t.Sound := by
  induction h with
  | refl => exact hs
  | tail _ hchange ih => exact ih.of_change hchange

/-- Later stores come about by elementary changes. -/
theorem Sound.changes (hs : s.Sound) (h : Later s t) : Changes s t := by
  induction h with
  | refl => exact .refl
  | tail _ hstep ih =>
    obtain ⟨op, hop, rfl⟩ := hstep
    exact ih.trans (op.changes (hs.of_changes ih) hop)

/-- Every store that can be reached is sound. -/
theorem Reachable.sound (h : s.Reachable) : s.Sound :=
  sound_empty.of_changes (sound_empty.changes h)

theorem Reachable.later (h : s.Reachable) (hst : Later s t) : t.Reachable :=
  ReflTransGen.trans h hst

theorem Reachable.perform (h : s.Reachable) (op : Operation)
    (hop : ∀ c ∈ op.operands, s.HasCommand c) : (op.perform s).Reachable :=
  ReflTransGen.tail h ⟨op, hop, rfl⟩

theorem Reachable.hasCommand_perform (h : s.Reachable) (op : Operation)
    (hop : ∀ c ∈ op.operands, s.HasCommand c) {c : CommandId} (hc : s.HasCommand c) :
    (op.perform s).HasCommand c :=
  (op.changes h.sound hop).hasCommand hc

/-- What elementary changes of sound stores keep holds after a chain of them. -/
theorem Changes.invariant {P : Store → Prop} (h : Changes s t) (hs : s.Sound) (hP : P s)
    (hchange : ∀ {s t : Store}, s.Sound → P s → Change s t → P t) : P t := by
  induction h with
  | refl => exact hP
  | tail hpre hlast ih => exact hchange (hs.of_changes hpre) ih hlast

/-- **What elementary changes of sound stores keep holds in every store that can be
reached.** -/
theorem Reachable.invariant {P : Store → Prop} (h : s.Reachable) (hempty : P {})
    (hchange : ∀ {s t : Store}, s.Sound → P s → Change s t → P t) : P s :=
  (sound_empty.changes h).invariant sound_empty hempty hchange

/-! ## Sequences of operations -/

/-- The store after operations, one after the other. -/
def performAll (s : Store) (ops : List Operation) : Store := ops.foldl Operation.perform s

/-- Each of the operations is applied to commands that were made before it. -/
def Admits (s : Store) : List Operation → Prop
  | [] => True
  | op :: rest => (∀ c ∈ op.operands, s.HasCommand c) ∧ Admits (op.perform s) rest

theorem Admits.later {ops : List Operation} (h : s.Admits ops) : Later s (s.performAll ops) := by
  induction ops generalizing s with
  | nil => exact .refl
  | cons op rest ih => exact ReflTransGen.head ⟨op, h.1, rfl⟩ (ih h.2)

/-- Commands that are there stay, so operations on them can be carried out in any order. -/
theorem Sound.admits (hs : s.Sound) {ops : List Operation}
    (hops : ∀ op ∈ ops, ∀ c ∈ op.operands, s.HasCommand c) : s.Admits ops := by
  induction ops generalizing s with
  | nil => trivial
  | cons op rest ih =>
    have hop := hops op (by simp)
    have hchanges := op.changes hs hop
    refine ⟨hop, ih (hs.of_changes hchanges) fun other hother c hc => ?_⟩
    exact hchanges.hasCommand (hops other (by simp [hother]) c hc)

/-! ## A store with a shared registry -/

/-- Commands `a` and `b` and an alias of `a`, after `b` was registered under `a` and the
alias, which borrows the registry of `a`, was to be registered under `b`. -/
def crossed : Store :=
  [Operation.create { keyword := "a" }, .create { keyword := "b" }, .makeAlias ⟨0⟩ "c",
    .register ⟨0⟩ ⟨1⟩, .register ⟨1⟩ ⟨2⟩].foldl Operation.perform {}

theorem reachable_crossed : crossed.Reachable := by
  have hempty : Reachable {} := ReflTransGen.refl
  have ha := hempty.perform (.create { keyword := "a" }) (by decide)
  have hb := ha.perform (.create { keyword := "b" }) (by decide)
  have hc := hb.perform (.makeAlias ⟨0⟩ "c") (by decide)
  have hab := hc.perform (.register ⟨0⟩ ⟨1⟩) (by decide)
  refine hab.perform (.register ⟨1⟩ ⟨2⟩) fun c hmem => ?_
  exact hc.hasCommand_perform _ (by decide) ((by decide : ∀ c ∈ [⟨1⟩, ⟨2⟩], HasCommand _ c) c hmem)

end Store

end CommandShell
