/-!
# How alike two names are

A name that no setting has is often a misspelt one.  Two names are compared by the
characters they share: the longest run that both have, then the longest runs on its
left and on its right, and so on.  A likeness is twice the number of shared characters
over the number of all; names are close from three fifths on.

In a long name, characters that occur all the time do not start a run; they only make
one longer.
-/

namespace CommandShell.Likeness

/-- A run that two texts share: where it starts in each, and how long it is. -/
structure Run where
  /-- Where it starts in the first text. -/
  first : Nat
  /-- Where it starts in the second text. -/
  second : Nat
  /-- How long it is. -/
  size : Nat
deriving DecidableEq, Repr

/-! ## Runs -/

/-- How long the shared runs are that start with the character `c`, by where they start
in `bs`; `after` tells the same of the character after `c`.  Only characters that
`counts` holds of make a run. -/
def sizesAt (counts : Char → Bool) (bs : List Char) (c : Char) (after : List Nat) : List Nat :=
  List.zipWith (fun b n => if c == b && counts b then n + 1 else 0) bs (after.drop 1 ++ [0])

/-- The first of the greatest of some sizes, with its position. -/
def greatest : List Nat → Nat × Nat
  | [] => (0, 0)
  | n :: rest =>
    let (i, m) := greatest rest
    if m ≤ n then (0, n) else (i + 1, m)

/-- The sizes of the runs that start with the first character of `as`, and the longest
run of all; of several the one that starts first. -/
def scan (counts : Char → Bool) (bs : List Char) : List Char → List Nat × Run
  | [] => (bs.map fun _ => 0, ⟨0, 0, 0⟩)
  | c :: rest =>
    let (after, best) := scan counts bs rest
    let here := sizesAt counts bs c after
    let (position, size) := greatest here
    (here, if best.size ≤ size then ⟨0, position, size⟩ else { best with first := best.first + 1 })

/-- How many characters two texts have in common at their start. -/
def common : List Char → List Char → Nat
  | a :: as, b :: bs => if a = b then common as bs + 1 else 0
  | _, _ => 0

/-- A run, made longer on both sides by whatever characters the texts share there. -/
def widen (as bs : List Char) (run : Run) : Run :=
  let before := common (as.take run.first).reverse (bs.take run.second).reverse
  let after := common (as.drop (run.first + run.size)) (bs.drop (run.second + run.size))
  ⟨run.first - before, run.second - before, before + run.size + after⟩

/-- The longest run that two texts share. -/
def longestRun (counts : Char → Bool) (as bs : List Char) : Run :=
  widen as bs (scan counts bs as).2

/-- How many characters two texts share, if `steps` runs are looked for in a row. -/
def sharedWithin (counts : Char → Bool) : Nat → List Char → List Char → Nat
  | 0, _, _ => 0
  | steps + 1, as, bs =>
    let run := longestRun counts as bs
    if run.size = 0 then 0
    else
      sharedWithin counts steps (as.take run.first) (bs.take run.second) + run.size
        + sharedWithin counts steps (as.drop (run.first + run.size))
            (bs.drop (run.second + run.size))

/-- From this length on, characters that occur all the time start no run. -/
def longText : Nat := 200

/-- The character is rare enough in a text to start a run. -/
def isRare (bs : List Char) (c : Char) : Bool :=
  bs.length < longText || bs.count c ≤ bs.length / 100 + 1

/-- How many characters two texts share.  Every run takes at least one character of the
first, so there are no more runs than it has characters. -/
def shared (as bs : List Char) : Nat :=
  sharedWithin (isRare bs) as.length as bs

/-! ## Close names -/

/-- A known name with the characters that it shares with the one in question. -/
structure Candidate where
  /-- The name. -/
  name : String
  /-- How many characters are shared. -/
  shared : Nat
  /-- How many characters both names have. -/
  total : Nat
deriving DecidableEq, Repr

/-- A known name as a candidate. -/
def candidate (key name : String) : Candidate :=
  ⟨name, shared name.toList key.toList, name.length + key.length⟩

namespace Candidate

/-- The likeness is at least three fifths. -/
def isClose (c : Candidate) : Bool :=
  3 * c.total ≤ 10 * c.shared

/-- The likeness as a fraction; two empty names are as alike as can be. -/
def fraction (c : Candidate) : Nat × Nat :=
  if c.total = 0 then (1, 1) else (2 * c.shared, c.total)

/-- One candidate is to be preferred to another: its likeness is greater, or the same
and its name comes later in the alphabet. -/
def beats (c d : Candidate) : Bool :=
  let (n, m) := c.fraction
  let (k, l) := d.fraction
  k * m < n * l || (k * m == n * l && d.name < c.name)

end Candidate

/-- The candidate to be preferred to all others. -/
def best? : List Candidate → Option Candidate
  | [] => none
  | c :: rest =>
    match best? rest with
    | none => some c
    | some d => some (if d.beats c then d else c)

/-- The known name that is closest to a key, if any is close. -/
def closest? (key : String) (known : List String) : Option String :=
  (best? ((known.map (candidate key)).filter Candidate.isClose)).map Candidate.name

end CommandShell.Likeness
