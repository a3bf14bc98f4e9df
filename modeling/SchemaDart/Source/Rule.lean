import SchemaDart.Source.Tree

/-!
# Rules

A rule reads something from the front of a sequence of trees.  Here are the rules of which those of the grammar are
put together.
-/

namespace SchemaDart
namespace Source

/-- A rule reads something from the front of a sequence of trees. -/
abbrev Rule := StateT (List Tree) Option

namespace Rule

variable {α : Type}

/-- The rule does not apply. -/
def fail : Rule α := fun _ => none

/-- The next tree, if there is one; it stays. -/
def peek? : Rule (Option Tree) := fun ts => some (ts.head?, ts)

/-- The next tree. -/
def tree : Rule Tree
  | [] => none
  | t :: ts => some (t, ts)

/-- No comma is next.  Where two tokens together tell what is being read, none may stand between them. -/
def joined : Rule Unit := fun ts => if ts.head?.any (·.place.afterComma) then none else some ((), ts)

/-- A name, if one is next. -/
def name? : Rule (Option String)
  | .leaf (.name n) _ :: ts => some (some n, ts)
  | ts => some (none, ts)

/-- A name. -/
def name : Rule String
  | .leaf (.name n) _ :: ts => some (n, ts)
  | _ => none

/-- Whether the given mark is next; if so it is read. -/
def mark? (m : Mark) : Rule Bool
  | .leaf (.mark m') place :: ts => some (if m' = m then (true, ts) else (false, .leaf (.mark m') place :: ts))
  | ts => some (false, ts)

/-- The given mark. -/
def mark (m : Mark) : Rule Unit := do unless ← mark? m do fail

/-- Whether the given keyword is next; if so it is read. -/
def keyword? (word : String) : Rule Bool
  | .leaf (.name n) place :: ts => some (if n = word then (true, ts) else (false, .leaf (.name n) place :: ts))
  | ts => some (false, ts)

/-- The given keyword. -/
def keyword (word : String) : Rule Unit := do unless ← keyword? word do fail

/-- What stands in a group that is next, if one with the given brackets is. -/
def group? (b : Bracket) : Rule (Option (List Tree))
  | .group b' place inside :: ts =>
    some (if b' = b then (some inside, ts) else (none, .group b' place inside :: ts))
  | ts => some (none, ts)

/-- All that a sequence of trees holds, by a rule for one item.  An item takes at least one tree. -/
def items (rule : Rule α) (ts : List Tree) : Option (List α) :=
  if ts.isEmpty then some []
  else
    match rule ts with
    | none => none
    | some (a, rest) =>
      if rest.length < ts.length then (items rule rest).map (a :: ·) else none
termination_by ts.length

/-- One or more items between brackets, or none without brackets. -/
def block? (b : Bracket) (rule : Rule α) : Rule (List α) := do
  match ← group? b with
  | none => return []
  | some [] => fail
  | some inside => items rule inside

/-- Further names, each behind a separator. -/
def moreNames (separator : Mark) : List Tree → Option (List String × List Tree)
  | .leaf (.mark m) place :: ts =>
    if m = separator then
      match ts with
      | .leaf (.name n) _ :: ts => (moreNames separator ts).map fun (names, ts) => (n :: names, ts)
      | _ => none
    else some ([], .leaf (.mark m) place :: ts)
  | ts => some ([], ts)

/-- One or more names with separators between them; one more may stand in front. -/
def names (separator : Mark) : Rule (List String) := do
  let _ ← mark? separator
  let first ← name
  let more ← moreNames separator
  return first :: more

/-- Whether a description is next; if so it is read. -/
def description? : Rule Bool
  | .leaf (.string _) _ :: ts => some (true, ts)
  | ts => some (false, ts)

end Rule

end Source
end SchemaDart
