import CommandShell.Decimal.Text
import CommandShell.Numeral
import CommandShell.Text.Quoted
import CommandShell.Value.Moment

/-!
# Values of settings

A setting holds a value of one of a few kinds.  Which kinds a setting admits is the
schema's business; here is what can be done with any value: show it, compare it with
a listed choice, read it as an integer or as a switch.

## Main definitions

* `Value` — the values; a table keeps its keys in the order they were given.
* `Value.shown`, `Value.quoted` — the two ways to show one: bare, or as it stands
  inside another.
* `Value.isShowable` — whether it can be shown at all.
* `Value.same` — equality across kinds of numbers.
* `Value.truth`, `Value.isOn` — as a condition, and as a switch.
* `Value.integer` — as an integer.
-/

namespace CommandShell

/-- A value of a setting. -/
inductive Value where
  /-- No value. -/
  | null
  /-- A truth value. -/
  | bool (b : Bool)
  /-- An integer. -/
  | int (n : Int)
  /-- A floating-point number. -/
  | float (x : Float)
  /-- A text. -/
  | text (s : String)
  /-- A date or a time. -/
  | moment (m : Moment)
  /-- A list of values. -/
  | list (items : List Value)
  /-- A table of named values. -/
  | table (entries : List (String × Value))

instance : Inhabited Value := ⟨.null⟩

/-- Named values in order. -/
abbrev Table := List (String × Value)

/-- The value under a name; of several the last counts. -/
def Table.get? (t : Table) (name : String) : Option Value :=
  (t.reverse.find? (·.1 == name)).map (·.2)

/-- Puts a value under a name.  A name that is there already keeps its place. -/
def Table.insert (t : Table) (name : String) (v : Value) : Table :=
  if t.any (·.1 == name) then t.map fun e => if e.1 == name then (name, v) else e
  else t ++ [(name, v)]

namespace Value

/-! ## Text -/

mutual

/-- A value as it stands inside another: texts are quoted. -/
def quoted : Value → String
  | null => "None"
  | bool b => if b then "True" else "False"
  | int n => toString n
  | float x => Decimal.text x
  | text s => Text.quoted s
  | moment m => m.textWith " "
  | list items => "[" ++ quotedItems items ++ "]"
  | table entries => "\x7b" ++ quotedEntries entries ++ "\x7d"

/-- The items of a list, separated by commas. -/
def quotedItems : List Value → String
  | [] => ""
  | [v] => quoted v
  | v :: rest => quoted v ++ ", " ++ quotedItems rest

/-- The entries of a table, separated by commas. -/
def quotedEntries : List (String × Value) → String
  | [] => ""
  | [(name, v)] => Text.quoted name ++ ": " ++ quoted v
  | (name, v) :: rest => Text.quoted name ++ ": " ++ quoted v ++ ", " ++ quotedEntries rest

end

/-- A value as it is shown alone: a text stands without quotes. -/
def shown : Value → String
  | text s => s
  | v => v.quoted

mutual

/-- A value can be shown: no integer in it has more decimal digits than are converted. -/
def isShowable : Value → Bool
  | int n => n.natAbs < Nat.pow 10 Numeral.digitLimit
  | list items => itemsShowable items
  | table entries => entriesShowable entries
  | _ => true

/-- All items of a list can be shown. -/
def itemsShowable : List Value → Bool
  | [] => true
  | v :: rest => isShowable v && itemsShowable rest

/-- All values of a table can be shown. -/
def entriesShowable : List (String × Value) → Bool
  | [] => true
  | (_, v) :: rest => isShowable v && entriesShowable rest

end

/-- The name of a value's kind in messages. -/
def kind : Value → String
  | null => "NoneType"
  | bool _ => "bool"
  | int _ => "int"
  | float _ => "float"
  | text _ => "str"
  | moment (.date _) => "date"
  | moment (.clock _) => "time"
  | moment (.both ..) => "datetime"
  | list _ => "list"
  | table _ => "dict"

/-! ## Comparison -/

/-- The number that a value is, if it is one; a truth value counts as 0 or 1. -/
def number? : Value → Option (Int ⊕ Float)
  | bool b => some (.inl (if b then 1 else 0))
  | int n => some (.inl n)
  | float x => some (.inr x)
  | _ => none

/-- Numbers are the same if they are equal as numbers, whatever their kind. -/
def sameNumber : Int ⊕ Float → Int ⊕ Float → Bool
  | .inl m, .inl n => m == n
  | .inl m, .inr y => (Exact.ofFloat y).isInt m
  | .inr x, .inl n => (Exact.ofFloat x).isInt n
  | .inr x, .inr y => x == y

mutual

/-- Equality of values: numbers and truth values as numbers, moments as such, lists item by
item, tables entry by entry in any order. -/
def same : Value → Value → Bool
  | null, null => true
  | text s, text t => s == t
  | moment m, moment n => m.same n
  | list xs, list ys => sameItems xs ys
  | table xs, table ys => xs.length == ys.length && sameEntries xs ys
  | bool a, w => (w.number?.map (sameNumber (.inl (if a then 1 else 0)))).getD false
  | int n, w => (w.number?.map (sameNumber (.inl n))).getD false
  | float x, w => (w.number?.map (sameNumber (.inr x))).getD false
  | _, _ => false

/-- Equality of lists, item by item. -/
def sameItems : List Value → List Value → Bool
  | [], [] => true
  | x :: xs, y :: ys => same x y && sameItems xs ys
  | _, _ => false

/-- Every entry of the first table has an equal one in the second. -/
def sameEntries : List (String × Value) → List (String × Value) → Bool
  | [], _ => true
  | (name, v) :: rest, ys =>
    (match Table.get? ys name with
      | some w => same v w
      | none => false) && sameEntries rest ys

end

/-! ## As a condition, a switch, an integer -/

/-- A value as a condition: zero, the empty ones and no value are false. -/
def truth : Value → Bool
  | null => false
  | bool b => b
  | int n => n != 0
  | float x => !(Exact.ofFloat x).isZero
  | text s => !s.isEmpty
  | moment _ => true
  | list items => !items.isEmpty
  | table entries => !entries.isEmpty

/-- The words that switch something on. -/
def onWords : List String := ["true", "yes", "on", "1", "enabled"]

/-- The words that switch something off. -/
def offWords : List String := ["false", "no", "off", "0", "disabled"]

/-- A text in lower case.  Only ASCII letters are changed: no other letter has one of
the letters of `onWords` or `offWords` as its small form. -/
def lower (s : String) : String :=
  String.ofList (s.toList.map Char.toLower)

/-- A text as a switch: off if it is blank or one of `offWords`, on otherwise. -/
def isOnText (s : String) : Bool :=
  !(Text.strip s).isEmpty && !offWords.contains (Text.strip (lower s))

/-- A value as a switch; no value counts as `fallback`. -/
def isOn (v : Value) (fallback : Bool) : Bool :=
  match v with
  | null => fallback
  | text s => isOnText s
  | v => v.truth

/-- What comes of reading a value as an integer. -/
inductive Integer where
  /-- It is this integer. -/
  | exact (n : Int)
  /-- It is infinite. -/
  | infinite
  /-- It is none. -/
  | invalid
deriving DecidableEq, Repr

/-- A value as an integer: numbers lose their fraction, texts are read in base ten. -/
def integer : Value → Integer
  | bool b => .exact (if b then 1 else 0)
  | int n => .exact n
  | float x =>
    match Exact.ofFloat x with
    | .infinite _ => .infinite
    | .nan => .invalid
    | e => (e.truncate?.map Integer.exact).getD .invalid
  | text s => ((Numeral.decimal? s).map Integer.exact).getD .invalid
  | _ => .invalid

end Value

end CommandShell
