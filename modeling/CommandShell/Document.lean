import CommandShell.Document.Item

/-!
# Settings files

A settings file is a sequence of statements, one on a line: a value for a key, the
heading of a table, or the heading of one more table of a list.  What it says is one
table.

## Main definitions

* `Document.statement` — reads one statement.
* `Document.read` — the table that a text describes.
-/

namespace CommandShell.Document

/-- Goes on with a draft, if there is one. -/
def continued (draft : Option Draft) (rest : List Char) : Reading Draft :=
  match draft with
  | some d => .ok (d, rest)
  | none => malformed

/-- Reads a heading after its opening bracket. -/
def heading (d : Draft) (cs : List Char) : Except Flaw (Draft × List Char) :=
  match cs with
  | '[' :: rest => do
    let (k, rest) ← key (skipSpaces rest)
    match rest with
    | ']' :: ']' :: rest => continued (d.openItem k) rest
    | _ => malformed
  | _ => do
    let (k, rest) ← key (skipSpaces cs)
    match rest with
    | ']' :: rest => continued (d.openTable k) rest
    | _ => malformed

/-- Reads one statement, if the line holds any. -/
def statement (d : Draft) (cs : List Char) : Except Flaw (Draft × List Char) :=
  match cs with
  | [] => .ok (d, [])
  | c :: rest =>
    if c = '\n' ∨ c = '#' then .ok (d, cs)
    else if c = '[' then heading d.settle rest
    else do
      let ((k, v), rest) ← entry value cs
      continued (d.assign k v) rest

/-- Reads the lines of a document, at most `count` of them. -/
def linesWithin : Nat → Draft → List Char → Except Flaw Draft
  | 0, d, _ => .ok d
  | count + 1, d, cs => do
    let (d, rest) ← statement d (skipSpaces cs)
    match ← skipComment (skipSpaces rest) with
    | [] => return d
    | '\n' :: rest => linesWithin count d rest
    | _ => malformed

/-- Line ends of two characters become single ones. -/
def unifyEnds : List Char → List Char
  | '\r' :: '\n' :: rest => '\n' :: unifyEnds rest
  | c :: rest => c :: unifyEnds rest
  | [] => []

/-- The table that a text describes. -/
def read (cs : List Char) : Except Flaw Table := do
  let cs := unifyEnds cs
  return (← linesWithin (cs.length + 1) {} cs).data

end CommandShell.Document
