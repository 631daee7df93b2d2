import CommandShell.Value

/-!
# Tables under construction

While a settings file is read its tables grow.  A name with dots reaches into tables
that are made on the way.  Some tables are closed to later statements: one that was
given in one piece is frozen with all that is in it, and one that has a heading of its
own may not get another, nor be reached by a name with dots.
-/

namespace CommandShell

/-- The names that lead to a value. -/
abbrev Key := List String

/-- Changes the table that a key leads to; missing tables are made on the way.  With
`lists`, a list on the way stands for its last table. -/
def Table.within (lists : Bool) (f : Table → Option Table) : Key → Table → Option Table
  | [], t => f t
  | name :: key, t =>
    match t.get? name with
    | none => (within lists f key []).map fun u => t.insert name (.table u)
    | some (.table u) => (within lists f key u).map fun u => t.insert name (.table u)
    | some (.list items) =>
      match lists, items.getLast? with
      | true, some (.table u) =>
        (within lists f key u).map fun u =>
          t.insert name (.list (items.dropLast ++ [.table u]))
      | _, _ => none
    | some _ => none

/-- Adds a value under a name that has none. -/
def Table.add (name : String) (v : Value) (t : Table) : Option Table :=
  if (t.get? name).isSome then none else some (t.insert name v)

/-- Adds an empty table to the list under a name; the list is made if there is none. -/
def Table.addItem (name : String) (t : Table) : Option Table :=
  match t.get? name with
  | none => some (t.insert name (.list [.table []]))
  | some (.list items) => some (t.insert name (.list (items ++ [.table []])))
  | some _ => none

/-- The name at the end of a key. -/
def Key.last (key : Key) : String := key.getLast?.getD ""

/-- The value was given in one piece, so that nothing may be added to it. -/
def Value.isPiece : Value → Bool
  | .table _ => true
  | .list _ => true
  | _ => false

/-- A document as far as it has been read. -/
structure Draft where
  /-- The tables. -/
  data : Table := []
  /-- The keys of values that were given in one piece. -/
  frozen : List Key := []
  /-- The keys of tables that may get no heading. -/
  headed : List Key := []
  /-- The keys that join `headed` at the next heading. -/
  pending : List Key := []
  /-- The key of the table that statements add to. -/
  heading : Key := []

namespace Draft

variable (d : Draft)

/-- The key leads to, or into, a value that was given in one piece. -/
def isFrozen (key : Key) : Bool :=
  d.frozen.any (·.isPrefixOf key)

/-- A heading ends the section before it. -/
def settle : Draft :=
  { d with headed := d.pending ++ d.headed, pending := [] }

/-- Makes a table the one that statements add to. -/
def openTable (key : Key) : Option Draft :=
  if d.headed.contains key || d.isFrozen key then none
  else (Table.within true some key d.data).map fun data =>
    { d with data := data, headed := key :: d.headed, heading := key }

/-- Adds a table to a list of tables, and makes it the one that statements add to.
What is known of the tables under the list before is forgotten. -/
def openItem (key : Key) : Option Draft :=
  if d.isFrozen key then none
  else
    (Table.within true (Table.addItem (Key.last key)) key.dropLast d.data).map fun data =>
      { d with
        data := data
        frozen := d.frozen.filter fun k => !key.isPrefixOf k
        headed := key :: d.headed.filter fun k => !key.isPrefixOf k
        heading := key }

/-- The keys of the tables that a name with dots passes. -/
def passed (heading key : Key) : List Key :=
  (List.range (key.length - 1)).map fun i => heading ++ key.take (i + 1)

/-- Gives a value to a key under the current heading. -/
def assign (key : Key) (v : Value) : Option Draft :=
  let through := passed d.heading key
  if through.any d.headed.contains || d.isFrozen (d.heading ++ key.dropLast) then none
  else
    (Table.within true (Table.add (Key.last key) v) (d.heading ++ key.dropLast) d.data).map
      fun data =>
        { d with
          data := data
          pending := through ++ d.pending
          frozen := if v.isPiece then (d.heading ++ key) :: d.frozen else d.frozen }

end Draft

end CommandShell
