/-!
# Paths

A path is a text in which slashes set components apart.  Empty components and `.` name nothing, but how a path ends
says whether it can name a file.  A path that begins with a slash is absolute: its first component is the root.  Other
paths begin at the working directory.

Where a path leads is told by its components alone.  So `..` is a name like any other, and no absolute path leads to
where a relative one does.
-/

namespace SchemaDart
namespace Command
namespace Path

/-- The pieces of a text between slashes. -/
def piecesOf : List Char → List (List Char)
  | [] => [[]]
  | '/' :: cs => [] :: piecesOf cs
  | c :: cs =>
    match piecesOf cs with
    | [] => [[c]]
    | piece :: pieces => (c :: piece) :: pieces

/-- The root as a component.  No piece of text between slashes is like it. -/
def root : String := "/"

/-- The pieces of a path between slashes, and before them the root if the path is absolute. -/
def pieces (path : String) : List String :=
  match path.toList with
  | '/' :: cs => root :: (piecesOf cs).map String.ofList
  | cs => (piecesOf cs).map String.ofList

/-- Whether a piece names something. -/
def isName (piece : String) : Bool := piece ≠ "" && piece ≠ "."

/-- The names on the way to what the path names, from the root or from the working directory. -/
def components (path : String) : List String := (pieces path).filter isName

/-- How a path ends. -/
inductive Ending where
  | name
  | slash
  | dot
deriving DecidableEq

/-- How a path ends. -/
def ending (path : String) : Ending :=
  match (pieces path).reverse with
  | [] => .name
  | last :: before =>
    if last = "." then .dot
    else if last ≠ "" then .name
    else if before.find? (· ≠ "") = some "." then .dot
    else .slash

/-- Drops what names nothing from the end of a path, whose pieces are given in reverse.  A dot in front stays: it
is the working directory. -/
def dropUnnamed : List String → List String
  | [] => []
  | ["."] => ["."]
  | piece :: pieces => if isName piece then piece :: pieces else dropUnnamed pieces

/-- The path that has these pieces. -/
def join : List String → String
  | [] => ""
  | piece :: pieces =>
    if piece = root then root ++ "/".intercalate pieces else "/".intercalate (piece :: pieces)

/-- The directory in which what the path names lies, as the path writes it; empty if it writes none. -/
def parent (path : String) : String := join (dropUnnamed ((dropUnnamed (pieces path).reverse).drop 1)).reverse

end Path
end Command
end SchemaDart
