import CommandShell.Outline
import CommandShell.Text.Blank

/-!
# Help

The help has one row for every command below a given one, in depth-first order.  A
row is indented by its depth and shows the whole path of keywords that calls the
command; the descriptions of a group of siblings start in the same column.
-/

namespace CommandShell

/-- The spaces by which one more level is indented. -/
def helpIndent : Int := 4

/-- The least number of spaces between the usage and the description, where the
column is measured. -/
def helpGutter : Int := 2

/-- So many spaces; none for a negative number. -/
def spaces (n : Int) : String :=
  String.ofList (List.replicate n.toNat ' ')

/-- The path under which the sub-commands of a command are called. -/
def pathBelow (path : String) (face : Face) : String :=
  if face.keyword.isEmpty then path else path ++ face.keyword ++ " "

/-- One row: the description starts `column` characters after the indent, or one
space after the usage if that is too long. -/
def helpRow (indent : String) (column : Int) (face : Face) : String :=
  let usage := face.keyword ++ face.argHints
  Text.stripRight (indent ++ usage ++ spaces (max (column - usage.length) 1) ++ face.description)
    ++ "\n"

namespace Outline

mutual

/-- The rows for everything below the top, which is itself called by `path` and its
own keyword. -/
def rows (depth column : Int) (path : String) : Outline → List String
  | node face _ branches => rowsOf depth column (pathBelow path face) branches

/-- The rows for some siblings, called by `path` and their keyword, and for everything
below them. -/
def rowsOf (depth column : Int) (path : String) : List Outline → List String
  | [] => []
  | o :: rest =>
    helpRow (spaces (helpIndent * depth) ++ path) column o.face
      :: (rows (depth + 1) column path o ++ rowsOf depth column path rest)

end

end Outline

namespace Store

/-- The help rows for everything below a command. -/
def helpRows (s : Store) (c : CommandId) (depth : Int) (column? : Option Int) (path : String) :
    List String :=
  (s.outline c).rows depth (column?.getD ((s.longest c).usage + helpGutter)) path

/-- The text above the help rows. -/
def helpHeader : String := "commands:\n"

/-- The help for everything below a command, after a header. -/
def renderHelp (s : Store) (c : CommandId) (header : String := helpHeader) : String :=
  header ++ String.join (s.helpRows c 0 none "")

end Store

end CommandShell
