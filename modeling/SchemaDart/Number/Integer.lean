import SchemaDart.Fault
import SchemaDart.Number.Digits

/-!
# Reading 64-bit integers

An integer is an optional sign and one or more ASCII digits, leading zeros allowed.  It is read from left to right
and refused at the first character that is no digit or that takes the number out of range, whichever comes first.
-/

namespace SchemaDart
namespace Integer

/-- The least 64-bit integer, minus two to the 63rd. -/
def least : Int := -0x8000000000000000

/-- The greatest 64-bit integer. -/
def greatest : Int := 0x7fffffffffffffff

/-- The number `n` followed by the digit `d`, away from zero on the side of the sign. -/
def push (sign : Sign) (n : Int) (d : Nat) : Int :=
  match sign with
  | .plus => 10 * n + d
  | .minus => 10 * n - d

/-- How a number leaves the range. -/
def overflow : Sign → IntegerFault
  | .plus => .tooLarge
  | .minus => .tooSmall

/-- Reads digits behind the number `n`. -/
def readDigits (sign : Sign) (n : Int) : List Char → Except IntegerFault Int
  | [] => .ok n
  | c :: cs =>
    match digit? c with
    | none => .error .invalidDigit
    | some d =>
      let next := push sign n d
      if least ≤ next ∧ next ≤ greatest then readDigits sign next cs else .error (overflow sign)

/-- Reads a 64-bit integer. -/
def read (text : String) : Except IntegerFault Int64 :=
  match text.toList with
  | [] => .error .empty
  | cs =>
    match Sign.split cs with
    | (_, []) => .error .invalidDigit
    | (sign, body) => (readDigits sign 0 body).map Int64.ofInt

end Integer
end SchemaDart
