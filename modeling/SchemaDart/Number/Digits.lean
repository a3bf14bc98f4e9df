/-!
# Signs and decimal digits
-/

namespace SchemaDart

/-- The sign in front of a number. -/
inductive Sign where
  | plus
  | minus
deriving DecidableEq

/-- Splits off one leading `+` or `-`; without either the sign is plus. -/
def Sign.split : List Char → Sign × List Char
  | '+' :: cs => (.plus, cs)
  | '-' :: cs => (.minus, cs)
  | cs => (.plus, cs)

/-- The value of an ASCII digit. -/
def digit? (c : Char) : Option Nat :=
  if c.isDigit then some (c.toNat - '0'.toNat) else none

/-- The value of a run of digits in base ten; anything that is no digit counts as zero. -/
def decimalValue (cs : List Char) : Nat :=
  cs.foldl (fun n c => 10 * n + (digit? c).getD 0) 0

end SchemaDart
