import SchemaDart.Source.Grammar.Literal

/-!
# The grammar of selection sets

What an operation selects has no counterpart in Dart, so it is checked and dropped.
-/

namespace SchemaDart
namespace Source

open Rule

/-- What may still follow the selection that has just been read. -/
inductive Sequel where
  | none
  | directives
  | directivesAndSet
  | requiredSet
deriving DecidableEq

/-- Whether trees are selections with the given room, and the sequel of the one before them. -/
def selections (room : Nat) (sequel : Sequel) : List Tree → Bool
  | [] => sequel ≠ .requiredSet
  | .leaf (.mark .atSign) _ :: .leaf (.name _) _ :: .group .paren _ inside :: ts =>
    sequel ≠ .none && (arguments true room inside).isSome && selections room sequel ts
  | .leaf (.mark .atSign) _ :: .leaf (.name _) _ :: ts => sequel ≠ .none && selections room sequel ts
  | .group .brace _ inside :: ts =>
    (sequel = .directivesAndSet || sequel = .requiredSet)
      && room ≠ 0 && !inside.isEmpty && selections (room - 1) .none inside && selections room .none ts
  | .leaf (.mark .spread) _ :: .leaf (.name n) place :: ts =>
    sequel ≠ .requiredSet && !place.afterComma &&
      if n = "on" then
        match ts with
        | .leaf (.name _) _ :: ts => selections room .requiredSet ts
        | _ => false
      else selections room .directives ts
  | .leaf (.mark .spread) _ :: ts =>
    sequel ≠ .requiredSet && (joined ts).isSome && selections room .requiredSet ts
  | .leaf (.name _) _ :: .leaf (.mark .colon) place :: .leaf (.name _) _ :: .group .paren _ inside :: ts =>
    sequel ≠ .requiredSet && !place.afterComma && (arguments true room inside).isSome
      && selections room .directivesAndSet ts
  | .leaf (.name _) _ :: .leaf (.mark .colon) place :: .leaf (.name _) _ :: ts =>
    sequel ≠ .requiredSet && !place.afterComma && selections room .directivesAndSet ts
  | .leaf (.name _) _ :: .group .paren _ inside :: ts =>
    sequel ≠ .requiredSet && (arguments true room inside).isSome && selections room .directivesAndSet ts
  | .leaf (.name _) _ :: ts => sequel ≠ .requiredSet && selections room .directivesAndSet ts
  | _ => false

/-- A selection set. -/
def selectionSet : Rule Unit := do
  match ← group? .brace with
  | some (t :: ts) => unless selections (nestingLimit - 1) .none (t :: ts) do fail
  | _ => fail

end Source
end SchemaDart
