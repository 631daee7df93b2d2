import CommandShell.Store.Basic

/-!
# Outlines

Measuring the columns of the help and printing it both walk over everything below a
command, owned or borrowed, as often as it can be reached.  The outline is that walk
as a tree, so that both are recursions on a tree.
-/

namespace CommandShell

/-- A command with everything below it.  `hasRegistry` tells an empty registry from
none. -/
inductive Outline where
  /-- The command, and the outlines of its sub-commands in order. -/
  | node (face : Face) (hasRegistry : Bool) (branches : List Outline)

namespace Outline

/-- The command at the top. -/
def face : Outline → Face
  | node face _ _ => face

/-- The outlines of the sub-commands. -/
def branches : Outline → List Outline
  | node _ _ branches => branches

end Outline

/-- The outline of a command, at most `levels` registries deep. -/
def Store.outlineWithin (s : Store) : Nat → CommandId → Outline
  | 0, c => .node (s.command c).toFace (s.registryOf c).isSome []
  | levels + 1, c =>
    .node (s.command c).toFace (s.registryOf c).isSome
      ((s.subcommands c).map (outlineWithin s levels))

/-- The outline of a command.  A path that meets no registry twice is at most as long
as there are registries. -/
def Store.outline (s : Store) (c : CommandId) : Outline :=
  s.outlineWithin s.registries.length c

/-- The lengths of the longest fields of some commands. -/
structure Widths where
  /-- Of keyword and hints together. -/
  usage : Int := 0
  /-- Of the keyword. -/
  keyword : Int := 0
  /-- Of the hints. -/
  argHints : Int := 0
  /-- Of the description. -/
  description : Int := 0
deriving DecidableEq, Repr

namespace Widths

/-- The larger of two, field by field. -/
def max (a b : Widths) : Widths where
  usage := Max.max a.usage b.usage
  keyword := Max.max a.keyword b.keyword
  argHints := Max.max a.argHints b.argHints
  description := Max.max a.description b.description

/-- The lengths of the fields of one command. -/
def ofFace (face : Face) : Widths where
  usage := face.keyword.length + face.argHints.length
  keyword := face.keyword.length
  argHints := face.argHints.length
  description := face.description.length

end Widths

namespace Outline

mutual

/-- Widens the columns for everything below the top. -/
def widen (w : Widths) : Outline → Widths
  | node _ _ branches => widenAll w branches

/-- Widens the columns for some commands and everything below them. -/
def widenAll (w : Widths) : List Outline → Widths
  | [] => w
  | o :: rest => widenAll (widen (w.max (Widths.ofFace o.face)) o) rest

end

end Outline

/-- The longest fields of the commands below `c`, measured from `w` on. -/
def Store.longest (s : Store) (c : CommandId) (w : Widths := {}) : Widths :=
  (s.outline c).widen w

end CommandShell
