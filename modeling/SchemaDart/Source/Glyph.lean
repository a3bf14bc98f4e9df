/-!
# Characters and their lines

Lines are counted from one.  A character that ends a line stands on the line that it ends; a carriage return with
a line feed behind it ends one line, not two.
-/

namespace SchemaDart
namespace Source

/-- A character of a source text and the line on which it stands. -/
structure Glyph where
  char : Char
  line : Nat

/-- The characters that end a line. -/
def endsLine (c : Char) : Bool :=
  c ∈ ['\n', '\r', '\x0b', '\x0c', '\x85', '\u2028', '\u2029']

/-- Places characters from the given line on. -/
def placeFrom (line : Nat) : List Char → List Glyph
  | [] => []
  | '\r' :: '\n' :: cs => ⟨'\r', line⟩ :: ⟨'\n', line⟩ :: placeFrom (line + 1) cs
  | c :: cs => ⟨c, line⟩ :: placeFrom (if endsLine c then line + 1 else line) cs

/-- The characters of a text with their lines. -/
def glyphs (text : String) : List Glyph := placeFrom 1 text.toList

end Source
end SchemaDart
