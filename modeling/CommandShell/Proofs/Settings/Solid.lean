import CommandShell.Document
import Mathlib.Tactic.SplitIfs

/-!
# Documents have no gaps

That there is no value is a value of its own, which stands for settings that were not given.
A settings file cannot write it: whatever is read from a text is there, and so is everything
within it.
-/

namespace CommandShell

theorem bind_eq_ok {ε α β : Type} {x : Except ε α} {f : α → Except ε β} {b : β} :
    x >>= f = .ok b ↔ ∃ a, x = .ok a ∧ f a = .ok b := by
  cases x <;> simp [bind, Except.bind]

theorem map_eq_ok {ε α β : Type} {x : Except ε α} {f : α → β} {b : β} :
    x.map f = .ok b ↔ ∃ a, x = .ok a ∧ f a = b := by
  cases x <;> simp [Except.map]

/-- Neither the value nor anything within it is missing. -/
inductive Value.Solid : Value → Prop
  | bool (b : Bool) : Solid (.bool b)
  | int (n : Int) : Solid (.int n)
  | float (x : Float) : Solid (.float x)
  | text (s : String) : Solid (.text s)
  | moment (m : Moment) : Solid (.moment m)
  | list {items : List Value} (h : ∀ v ∈ items, Solid v) : Solid (.list items)
  | table {entries : List (String × Value)} (h : ∀ e ∈ entries, Solid e.2) :
    Solid (.table entries)

/-- No value of the table is missing. -/
def Table.Solid (t : Table) : Prop := ∀ e ∈ t, e.2.Solid

theorem Value.Solid.items {items : List Value} (h : (Value.list items).Solid) :
    ∀ v ∈ items, v.Solid := by
  cases h with
  | list h => exact h

theorem Value.Solid.entries {entries : Table} (h : (Value.table entries).Solid) :
    entries.Solid := by
  cases h with
  | table h => exact h

namespace Table.Solid

variable {t u : Table} {name : String} {v : Value}

theorem of_get? (h : t.Solid) (hv : t.get? name = some v) : v.Solid := by
  rw [get?, Option.map_eq_some_iff] at hv
  obtain ⟨e, he, rfl⟩ := hv
  exact h e (List.mem_reverse.1 (List.mem_of_find?_eq_some he))

theorem ne_null (h : t.Solid) (name : String) : t.get? name ≠ some .null := by
  intro hnull
  cases h.of_get? hnull

theorem nil : Table.Solid [] := by
  intro e he
  cases he

theorem insert (h : t.Solid) (hv : v.Solid) : (t.insert name v).Solid := by
  intro e he
  rw [Table.insert] at he
  split_ifs at he
  · obtain ⟨d, hd, rfl⟩ := List.mem_map.1 he
    split_ifs
    · exact hv
    · exact h d hd
  · obtain hold | rfl := by simpa using he
    · exact h e hold
    · exact hv

theorem add (h : t.Solid) (hv : v.Solid) (hu : Table.add name v t = some u) : u.Solid := by
  rw [Table.add] at hu
  split_ifs at hu
  cases hu
  exact h.insert hv

theorem addItem (h : t.Solid) (hu : Table.addItem name t = some u) : u.Solid := by
  have hitem : (Value.table []).Solid := .table nil
  rw [Table.addItem] at hu
  split at hu
  next =>
    cases hu
    exact h.insert (.list (by simpa using hitem))
  next items hget =>
    cases hu
    refine h.insert (.list fun v hv => ?_)
    obtain hold | hnew := List.mem_append.1 hv
    · exact (h.of_get? hget).items v hold
    · rw [List.mem_singleton.1 hnew]
      exact hitem
  next => cases hu

/-- What is changed deep in a table makes no gap in it if it makes none there. -/
theorem within {lists : Bool} {f : Table → Option Table} {key : Key}
    (hf : ∀ {t u : Table}, t.Solid → f t = some u → u.Solid) (h : t.Solid)
    (hu : Table.within lists f key t = some u) : u.Solid := by
  induction key generalizing t u with
  | nil => exact hf h hu
  | cons name key ih =>
    rw [Table.within] at hu
    split at hu
    next =>
      obtain ⟨w, hw, rfl⟩ := Option.map_eq_some_iff.1 hu
      exact h.insert (.table (ih nil hw))
    next inner hget =>
      obtain ⟨w, hw, rfl⟩ := Option.map_eq_some_iff.1 hu
      exact h.insert (.table (ih (h.of_get? hget).entries hw))
    next items hget =>
      have hitems := (h.of_get? hget).items
      split at hu
      next inner hlast =>
        obtain ⟨w, hw, rfl⟩ := Option.map_eq_some_iff.1 hu
        have hinner := (hitems _ (List.mem_of_getLast? hlast)).entries
        refine h.insert (.list fun v hv => ?_)
        obtain hold | hnew := List.mem_append.1 hv
        · exact hitems v (List.dropLast_subset _ hold)
        · rw [List.mem_singleton.1 hnew]
          exact .table (ih hinner hw)
      next => cases hu
    next => cases hu

end Table.Solid

namespace Document

open Table

/-- What a reader finds has no gap. -/
def ReadsSolid (value : List Char → Reading Value) : Prop :=
  ∀ {cs v rest}, value cs = .ok (v, rest) → v.Solid

theorem solid_decimal? {cs rest : List Char} {v : Value}
    (h : decimal? cs = some (.ok (v, rest))) : v.Solid := by
  simp only [decimal?, Option.bind_eq_bind, Option.bind_eq_some_iff] at h
  obtain ⟨whole, -, h⟩ := h
  split_ifs at h
  · cases h
  · cases h
    exact .int _
  · cases h
    exact .int _
  · obtain ⟨x, -, h⟩ := Option.bind_eq_some_iff.1 h
    cases h
    exact .float x

theorem solid_scalar : ReadsSolid scalar := by
  intro cs v rest h
  rw [scalar] at h
  split_ifs at h
  · cases h
    exact .bool true
  · cases h
    exact .bool false
  · split at h
    next found _ =>
      obtain ⟨⟨m, after⟩, -, heq⟩ := map_eq_ok.1 h
      cases heq
      exact .moment m
    next =>
      split at h
      next found hnumber =>
        subst h
        rw [number?] at hnumber
        split at hnumber
        next n after _ =>
          cases hnumber
          exact .int _
        next => exact solid_decimal? hnumber
      next =>
        split at h
        next found hnamed =>
          cases h
          simp only [namedNumber?, Option.bind_eq_bind, Option.bind_eq_some_iff] at hnamed
          obtain ⟨word, -, x, -, heq⟩ := hnamed
          cases heq
          exact .float x
        next => cases h

variable {value : List Char → Reading Value}

theorem solid_itemsWithin (hvalue : ReadsSolid value) {count : Nat} {cs rest : List Char}
    {items : List Value} (h : itemsWithin value count cs = .ok (items, rest)) :
    ∀ v ∈ items, v.Solid := by
  induction count generalizing cs items rest with
  | zero => cases h
  | succ count ih =>
    rw [itemsWithin, bind_eq_ok] at h
    obtain ⟨cs, -, h⟩ := h
    split at h
    next =>
      cases h
      simp
    next =>
      obtain ⟨⟨first, after⟩, hfirst, h⟩ := bind_eq_ok.1 h
      obtain ⟨after', -, h⟩ := bind_eq_ok.1 h
      split at h
      next =>
        cases h
        simpa using hvalue hfirst
      next =>
        obtain ⟨⟨others, after''⟩, hothers, h⟩ := bind_eq_ok.1 h
        cases h
        simpa using ⟨hvalue hfirst, ih hothers⟩
      next => cases h

theorem solid_entry (hvalue : ReadsSolid value) {cs rest : List Char} {k : Key} {v : Value}
    (h : entry value cs = .ok ((k, v), rest)) : v.Solid := by
  rw [entry, bind_eq_ok] at h
  obtain ⟨⟨k', after⟩, -, h⟩ := h
  dsimp only at h
  split at h
  next =>
    obtain ⟨⟨v', after'⟩, hfound, h⟩ := bind_eq_ok.1 h
    cases h
    exact hvalue hfound
  next => cases h

theorem solid_entriesWithin (hvalue : ReadsSolid value) {count : Nat} {t u : Table}
    {frozen : List Key} {cs rest : List Char} (ht : t.Solid)
    (h : entriesWithin value count t frozen cs = .ok (u, rest)) : u.Solid := by
  induction count generalizing t frozen cs with
  | zero => cases h
  | succ count ih =>
    rw [entriesWithin, bind_eq_ok] at h
    obtain ⟨⟨⟨k, v⟩, after⟩, hentry, h⟩ := h
    obtain ⟨t', hadd, h⟩ := bind_eq_ok.1 h
    have ht' : t'.Solid := by
      rw [addEntry] at hadd
      split_ifs at hadd
      · cases hadd
      · split at hadd
        next w hw =>
          cases hadd
          exact ht.within (fun hu => hu.add (solid_entry hvalue hentry)) hw
        next => cases hadd
    split at h
    next =>
      cases h
      exact ht'
    next => exact ih ht' h
    next => cases h

theorem solid_piece (hvalue : ReadsSolid value) {cs rest : List Char} {t : Table}
    (h : piece value cs = .ok (t, rest)) : t.Solid := by
  rw [piece] at h
  split at h
  next =>
    cases h
    exact .nil
  next => exact solid_entriesWithin hvalue .nil h

/-- Every value that is read is there, with all that is within it. -/
theorem solid_valueWithin (depth : Nat) : ReadsSolid (valueWithin depth) := by
  induction depth with
  | zero =>
    intro cs v rest h
    cases h
  | succ depth ih =>
    intro cs v rest h
    unfold valueWithin at h
    split at h
    next =>
      obtain ⟨⟨s, after⟩, -, heq⟩ := map_eq_ok.1 h
      cases heq
      exact .text s
    next =>
      obtain ⟨⟨s, after⟩, -, heq⟩ := map_eq_ok.1 h
      cases heq
      exact .text s
    next =>
      obtain ⟨⟨items, after⟩, hitems, heq⟩ := map_eq_ok.1 h
      cases heq
      exact .list (solid_itemsWithin ih hitems)
    next =>
      obtain ⟨⟨t, after⟩, ht, heq⟩ := map_eq_ok.1 h
      cases heq
      exact .table (solid_piece ih ht)
    next => exact solid_scalar h

theorem solid_value : ReadsSolid Document.value :=
  fun h => solid_valueWithin _ h

/-! ## Statements -/

theorem eq_some_of_continued {draft : Option Draft} {d : Draft} {cs rest : List Char}
    (h : continued draft cs = .ok (d, rest)) : draft = some d := by
  unfold continued at h
  split at h
  next =>
    cases h
    rfl
  next => cases h

theorem solid_heading {d d' : Draft} {cs rest : List Char} (hd : d.data.Solid)
    (h : heading d cs = .ok (d', rest)) : d'.data.Solid := by
  unfold heading at h
  split at h
  next =>
    obtain ⟨⟨k, after⟩, -, h⟩ := bind_eq_ok.1 h
    dsimp only at h
    split at h
    next =>
      have hopen := eq_some_of_continued h
      rw [Draft.openItem] at hopen
      split_ifs at hopen
      obtain ⟨data, hdata, rfl⟩ := Option.map_eq_some_iff.1 hopen
      exact hd.within (fun hu => hu.addItem) hdata
    next => cases h
  next =>
    obtain ⟨⟨k, after⟩, -, h⟩ := bind_eq_ok.1 h
    dsimp only at h
    split at h
    next =>
      have hopen := eq_some_of_continued h
      rw [Draft.openTable] at hopen
      split_ifs at hopen
      obtain ⟨data, hdata, rfl⟩ := Option.map_eq_some_iff.1 hopen
      refine hd.within (fun hu hsame => ?_) hdata
      exact Option.some.inj hsame ▸ hu
    next => cases h

theorem solid_statement {d d' : Draft} {cs rest : List Char} (hd : d.data.Solid)
    (h : statement d cs = .ok (d', rest)) : d'.data.Solid := by
  unfold statement at h
  split at h
  next =>
    cases h
    exact hd
  next =>
    split_ifs at h
    · cases h
      exact hd
    · exact solid_heading (d := d.settle) hd h
    · obtain ⟨⟨⟨k, v⟩, after⟩, hentry, h⟩ := bind_eq_ok.1 h
      have hassign := eq_some_of_continued h
      rw [Draft.assign] at hassign
      split at hassign
      · cases hassign
      · obtain ⟨data, hdata, rfl⟩ := Option.map_eq_some_iff.1 hassign
        exact hd.within (fun hu => hu.add (solid_entry solid_value hentry)) hdata

theorem solid_linesWithin {count : Nat} {d d' : Draft} {cs : List Char} (hd : d.data.Solid)
    (h : linesWithin count d cs = .ok d') : d'.data.Solid := by
  induction count generalizing d cs with
  | zero =>
    cases h
    exact hd
  | succ count ih =>
    rw [linesWithin, bind_eq_ok] at h
    obtain ⟨⟨d₁, rest⟩, hstatement, h⟩ := h
    have hd₁ := solid_statement hd hstatement
    obtain ⟨after, -, h⟩ := bind_eq_ok.1 h
    split at h
    next =>
      cases h
      exact hd₁
    next => exact ih hd₁ h
    next => cases h

/-- **Nothing is missing in a document that was read.** -/
theorem solid_read {cs : List Char} {document : Table} (h : read cs = .ok document) :
    document.Solid := by
  rw [read, bind_eq_ok] at h
  obtain ⟨d, hd, h⟩ := h
  cases h
  exact solid_linesWithin .nil hd

end Document

end CommandShell
