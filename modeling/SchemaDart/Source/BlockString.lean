/-!
# Block strings

The value of a block string is what its author sees: the indentation that all lines after the first share is taken
off, and so are blank lines at the beginning and the end.
-/

namespace SchemaDart
namespace Source

/-- The lines of a text, which end at a line feed, a carriage return or the two together. -/
def splitLines : List Char → List (List Char)
  | [] => [[]]
  | '\r' :: '\n' :: cs => [] :: splitLines cs
  | '\n' :: cs => [] :: splitLines cs
  | '\r' :: cs => [] :: splitLines cs
  | c :: cs =>
    match splitLines cs with
    | [] => [[c]]
    | line :: lines => (c :: line) :: lines

/-- Blanks that count as indentation. -/
def isIndentation (c : Char) : Bool := c = ' ' || c = '\t'

/-- Whether a line holds blanks only. -/
def isBlankLine (line : List Char) : Bool := line.all isIndentation

/-- How far a line is indented. -/
def indentation (line : List Char) : Nat := (line.takeWhile isIndentation).length

/-- The indentation that all lines share, blank ones apart. -/
def commonIndentation (lines : List (List Char)) : Nat :=
  (((lines.filter (!isBlankLine ·)).map indentation).min?).getD 0

/-- Takes the shared indentation off all lines but the first. -/
def unindent : List (List Char) → List (List Char)
  | [] => []
  | first :: rest => first :: rest.map (List.drop (commonIndentation rest))

/-- Drops blank lines at both ends. -/
def trimBlankLines (lines : List (List Char)) : List (List Char) :=
  ((lines.dropWhile isBlankLine).reverse.dropWhile isBlankLine).reverse

/-- The value of a block string with the given characters between its quotes. -/
def blockValue (raw : List Char) : List Char :=
  ['\n'].intercalate (trimBlankLines (unindent (splitLines raw)))

end Source
end SchemaDart
