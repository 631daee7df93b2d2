import CommandShell.Document.Draft
import CommandShell.Document.Quotation
import CommandShell.Document.Scalar

/-!
# Keys and values of a settings file

A key is one name or several with dots between.  A value is a text, a truth value, a
number, a date or a time, a list between brackets, or a table between braces.

Lists and tables hold values again.  Each level of nesting takes a bracket or a brace,
so no text nests more deeply than it is long.
-/

namespace CommandShell.Document

/-! ## Keys -/

/-- The characters that a name without quotes may have. -/
def isBare (c : Char) : Bool := c.isAlphanum || c == '-' || c == '_'

/-- Reads one name of a key. -/
def name (cs : List Char) : Reading String :=
  match cs with
  | [] => malformed
  | c :: rest =>
    if isBare c then .ok (String.ofList (cs.takeWhile isBare), cs.dropWhile isBare)
    else if c = '\x22' then basicFrom false [] rest
    else if c = '\x27' then literal rest
    else malformed

/-- Reads the names of a key, at most `count` of them, and the blanks after it. -/
def keyWithin : Nat → List Char → Except Flaw (Key × List Char)
  | 0, _ => malformed
  | count + 1, cs => do
    let (first, rest) ← name cs
    match skipSpaces rest with
    | '.' :: rest =>
      let (others, rest) ← keyWithin count (skipSpaces rest)
      return (first :: others, rest)
    | rest => return ([first], rest)

/-- Reads a key and the blanks after it. -/
def key (cs : List Char) : Reading Key := keyWithin cs.length cs

/-- Reads a key, an equals sign and a value. -/
def entry (value : List Char → Reading Value) (cs : List Char) :
    Except Flaw ((Key × Value) × List Char) := do
  let (k, rest) ← key cs
  match rest with
  | '=' :: rest =>
    let (v, rest) ← value (skipSpaces rest)
    return ((k, v), rest)
  | _ => malformed

/-! ## Lists and tables in one piece -/

/-- Reads the items of a list up to its closing bracket, at most `count` of them. -/
def itemsWithin (value : List Char → Reading Value) :
    Nat → List Char → Except Flaw (List Value × List Char)
  | 0, _ => malformed
  | count + 1, cs => do
    match ← skipBlanks cs with
    | ']' :: rest => return ([], rest)
    | cs =>
      let (first, rest) ← value cs
      match ← skipBlanks rest with
      | ']' :: rest => return ([first], rest)
      | ',' :: rest =>
        let (others, rest) ← itemsWithin value count rest
        return (first :: others, rest)
      | _ => malformed

/-- Adds an entry to a table in one piece; `frozen` are the keys that are closed. -/
def addEntry (t : Table) (frozen : List Key) (k : Key) (v : Value) : Except Flaw Table :=
  if frozen.any (·.isPrefixOf k) then malformed
  else
    match Table.within false (Table.add (Key.last k) v) k.dropLast t with
    | some t => .ok t
    | none => malformed

/-- Reads the entries of a table up to its closing brace, at most `count` of them; `t`
holds those before. -/
def entriesWithin (value : List Char → Reading Value) :
    Nat → Table → List Key → List Char → Except Flaw (Table × List Char)
  | 0, _, _, _ => malformed
  | count + 1, t, frozen, cs => do
    let ((k, v), rest) ← entry value cs
    let t ← addEntry t frozen k v
    match skipSpaces rest with
    | '\x7d' :: rest => return (t, rest)
    | ',' :: rest =>
      entriesWithin value count t (if v.isPiece then k :: frozen else frozen) (skipSpaces rest)
    | _ => malformed

/-- Reads a table after its opening brace. -/
def piece (value : List Char → Reading Value) (cs : List Char) : Reading Table :=
  match skipSpaces cs with
  | '\x7d' :: rest => .ok ([], rest)
  | cs => entriesWithin value cs.length [] [] cs

/-! ## Values -/

/-- Reads a value that is neither text nor list nor table. -/
def scalar (cs : List Char) : Reading Value :=
  if "true".toList.isPrefixOf cs then .ok (.bool true, cs.drop 4)
  else if "false".toList.isPrefixOf cs then .ok (.bool false, cs.drop 5)
  else
    match moment? cs with
    | some found => found.map fun (m, rest) => (.moment m, rest)
    | none =>
      match number? cs with
      | some found => found
      | none =>
        match namedNumber? cs with
        | some found => .ok found
        | none => malformed

/-- Reads a value in which lists and tables are nested at most `depth` deep. -/
def valueWithin : Nat → List Char → Reading Value
  | 0, _ => malformed
  | depth + 1, cs =>
    match cs with
    | '\x22' :: _ => (quotation cs).map fun (s, rest) => (.text s, rest)
    | '\x27' :: _ => (quotation cs).map fun (s, rest) => (.text s, rest)
    | '[' :: rest =>
      (itemsWithin (valueWithin depth) cs.length rest).map fun (items, rest) =>
        (.list items, rest)
    | '\x7b' :: rest =>
      (piece (valueWithin depth) rest).map fun (t, rest) => (.table t, rest)
    | _ => scalar cs

/-- Reads a value. -/
def value (cs : List Char) : Reading Value := valueWithin (cs.length + 1) cs

end CommandShell.Document
