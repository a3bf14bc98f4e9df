/-!
# Numbers as written

A number has no leading zeros and no plus, and digits on both sides of its point.  With a point or an exponent it is
a floating-point number.
-/

namespace SchemaDart
namespace Source

/-- The two forms of numbers. -/
inductive NumberForm where
  | int
  | float

/-- How far a number has been read. -/
inductive NumberState where
  | minus
  | zero
  | whole
  | point
  | fraction
  | exponentMark
  | exponentSign
  | exponent

namespace NumberState

/-- The state with one more character; `none` if the number cannot go on like this. -/
def next? : NumberState → Char → Option NumberState
  | .minus, c => if c = '0' then some .zero else if c.isDigit then some .whole else none
  | .zero, c => afterWhole? c
  | .whole, c => if c.isDigit then some .whole else afterWhole? c
  | .point, c => if c.isDigit then some .fraction else none
  | .fraction, c => if c.isDigit then some .fraction else exponentMark? c
  | .exponentMark, c =>
    if c = '+' || c = '-' then some .exponentSign else if c.isDigit then some .exponent else none
  | .exponentSign, c => if c.isDigit then some .exponent else none
  | .exponent, c => if c.isDigit then some .exponent else none
where
  exponentMark? (c : Char) : Option NumberState :=
    if c = 'e' || c = 'E' then some .exponentMark else none
  afterWhole? (c : Char) : Option NumberState :=
    if c = '.' then some .point else exponentMark? c

/-- The form of a number that ends in this state; `none` if it cannot end here. -/
def form? : NumberState → Option NumberForm
  | .zero => some .int
  | .whole => some .int
  | .fraction => some .float
  | .exponent => some .float
  | _ => none

end NumberState

end Source
end SchemaDart
