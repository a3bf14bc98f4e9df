import SchemaDart.Source.Rule

/-!
# The grammar of types, literals and directives

Types and literals nest, and recur on the trees inside a group.  Variables can stand in literals of operations only.
The `room` of something is how many levels deep its parts may nest.
-/

namespace SchemaDart
namespace Source

/-- How many levels deep list types, literals in lists and objects, and selection sets may nest.  Literals in selection
sets count on from there. -/
def nestingLimit : Nat := 500

/-! ### Types -/

/-- The type as it stands, or with a mark behind it as non-null type. -/
def nullability (type : Bool → TypeRef) : List Tree → TypeRef × List Tree
  | .leaf (.mark .bang) _ :: ts => (type true, ts)
  | ts => (type false, ts)

/-- A reference to a type, with the given room. -/
def typeWithin (room : Nat) : Rule TypeRef
  | .leaf (.name n) _ :: ts => some (nullability (.named n) ts)
  | .group .square _ inside :: ts =>
    if room = 0 then none
    else
      match typeWithin (room - 1) inside with
      | some (element, []) => some (nullability (.list element) ts)
      | _ => none
  | _ => none

/-- A reference to a type. -/
def type : Rule TypeRef := typeWithin nestingLimit

/-! ### Literals -/

/-- The literal that a name is. -/
def literalOfName (name : String) : Literal :=
  if name = "true" then .boolean true
  else if name = "false" then .boolean false
  else if name = "null" then .null
  else .enum name

mutual

/-- The literal that one tree is; variables are more than one. -/
def literal (vars : Bool) (room : Nat) : Tree → Option Literal
  | .leaf (.name n) _ => some (literalOfName n)
  | .leaf (.int text) _ => some (.int text)
  | .leaf (.float text) _ => some (.float text)
  | .leaf (.string value) _ => some (.string value)
  | .group .square _ inside => (literals vars room inside).map .list
  | .group .brace _ inside => (entries vars room inside).map .object
  | _ => none

/-- The literals of a list. -/
def literals (vars : Bool) (room : Nat) : List Tree → Option (List Literal)
  | [] => some []
  | .leaf (.mark .dollar) _ :: .leaf (.name n) _ :: ts =>
    if vars ∧ room ≠ 0 then (literals vars room ts).map (.var n :: ·) else none
  | t :: ts =>
    if room = 0 then none
    else do return (← literal vars (room - 1) t) :: (← literals vars room ts)

/-- Names with literals, in an object and in an argument list.  A name without a literal is dropped. -/
def entries (vars : Bool) (room : Nat) : List Tree → Option (List (String × Literal))
  | [] => some []
  | .leaf (.name key) _ :: .leaf (.mark .colon) _ :: .leaf (.mark .dollar) _ :: .leaf (.name n) _ :: ts =>
    if vars ∧ room ≠ 0 then (entries vars room ts).map ((key, .var n) :: ·) else none
  | .leaf (.name key) _ :: .leaf (.mark .colon) _ :: t :: ts =>
    if room = 0 then none
    else do return (key, ← literal vars (room - 1) t) :: (← entries vars room ts)
  | .leaf (.name _) _ :: .leaf (.mark .colon) _ :: _ => none
  | .leaf (.name _) _ :: ts => entries vars room ts
  | _ => none

end

/-- The arguments between a pair of parentheses, each literal with the given room. -/
def arguments (vars : Bool) (room : Nat) : List Tree → Option (List (String × Literal))
  | [] => none
  | inside => entries vars (room + 1) inside

/-! ### Directives -/

/-- The directives in front. -/
def directives (vars : Bool) : List Tree → Option (List Directive × List Tree)
  | .leaf (.mark .atSign) _ :: .leaf (.name n) _ :: .group .paren _ inside :: ts => do
    let args ← arguments vars nestingLimit inside
    let (more, ts) ← directives vars ts
    return (⟨n, args⟩ :: more, ts)
  | .leaf (.mark .atSign) _ :: .leaf (.name n) _ :: ts => do
    let (more, ts) ← directives vars ts
    return (⟨n, []⟩ :: more, ts)
  | .leaf (.mark .atSign) _ :: _ => none
  | ts => some ([], ts)

/-- The directives of a definition, in which no variables can stand. -/
def constDirectives : Rule (List Directive) := directives false

end Source
end SchemaDart
