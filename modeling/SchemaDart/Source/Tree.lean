import SchemaDart.Source.Token

/-!
# Token trees

All structure that GraphQL nests is nested by brackets.  So tokens are first grouped by their brackets into trees,
and the grammar reads sequences of trees.  Commas divide nothing; a tree only remembers that one stands before it.
-/

namespace SchemaDart
namespace Source

/-- Where a tree stands: the lines that it stretches over, brackets included, and whether a comma is before it. -/
structure Place where
  lines : LineRange
  afterComma : Bool

/-- A token other than a bracket or a comma, or what stands between two matching brackets. -/
inductive Tree where
  | leaf (lexeme : Lexeme) (place : Place)
  | group (bracket : Bracket) (place : Place) (inside : List Tree)

def Tree.place : Tree → Place
  | .leaf _ place => place
  | .group _ place _ => place

/-- A group whose closing bracket has not come yet, with the trees before it, the latest first. -/
structure OpenGroup where
  bracket : Bracket
  line : Nat
  afterComma : Bool
  before : List Tree

/-- Groups tokens.  `comma` is whether the token before them was a comma; `current` holds the trees since the
innermost open bracket, the latest first. -/
def groupFrom (comma : Bool) (current : List Tree) (outer : List OpenGroup) : List Token → Option (List Tree)
  | [] => if outer.isEmpty then some current.reverse else none
  | t :: ts =>
    match t.lexeme with
    | .comma => groupFrom true current outer ts
    | .opening bracket => groupFrom false [] (⟨bracket, t.lines.first, comma, current⟩ :: outer) ts
    | .closing bracket =>
      match outer with
      | [] => none
      | o :: outer =>
        if o.bracket = bracket then
          let place : Place := ⟨⟨o.line, t.lines.last⟩, o.afterComma⟩
          groupFrom false (.group bracket place current.reverse :: o.before) outer ts
        else none
    | lexeme => groupFrom false (.leaf lexeme ⟨t.lines, comma⟩ :: current) outer ts

/-- The trees of a text. -/
def trees? (text : String) : Option (List Tree) := (tokens? text).bind (groupFrom false [] [])

end Source
end SchemaDart
