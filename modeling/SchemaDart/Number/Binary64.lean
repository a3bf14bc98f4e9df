import SchemaDart.Fault
import SchemaDart.Number.Digits

/-!
# Binary64 numbers

A floating-point number is held as its IEEE 754 binary64 bits, so that both zeros and both signs of a NaN are told
apart.  Reading goes through the exact ratio that the text denotes and rounds once, to the nearest number and in
the middle to the even one.
-/

namespace SchemaDart

/-- A binary64 number by its bits: sign, eleven bits of exponent, 52 bits of fraction. -/
structure Binary64 where
  bits : UInt64
deriving DecidableEq

namespace Binary64

/-- `n / d` rounded to the nearest integer, in the middle to the even one. -/
def roundDiv (n d : Nat) : Nat :=
  let q := n / d
  let r := n % d
  if 2 * r < d then q
  else if d < 2 * r then q + 1
  else q + q % 2

/-- One in the lowest place of the exponent, two to the 52nd.  It is also the least significand of 53 binary
digits. -/
def exponentUnit : Nat := 0x10000000000000

/-- The bits of positive infinity, the first beyond those of the finite numbers. -/
def infinityBits : Nat := 0x7ff0000000000000

/-- The bits of the positive NaN. -/
def nanBits : Nat := 0x7ff8000000000000

/-- The bit of the sign. -/
def signBit : Nat := 0x8000000000000000

/-- The bits of the number nearest to `n / d`, for a positive `d`.

The significand is scaled by the power of two `e` that gives it 53 binary digits, or by the least power there is.
A significand that rounds up to 54 digits carries into the exponent by itself. -/
def nearestBits (n d : Nat) : Nat :=
  if n = 0 then 0
  else
    let scaled (e : Int) : Nat × Nat := (n <<< (-e).toNat, d <<< e.toNat)
    let guess : Int := (n.log2 : Int) - d.log2 - 52
    let (gn, gd) := scaled guess
    let e := max (if gn / gd < exponentUnit then guess - 1 else guess) (-1074)
    let (sn, sd) := scaled e
    min infinityBits ((e + 1074).toNat * exponentUnit + roundDiv sn sd)

/-- The bits of the number nearest to `m * 10 ^ e`.

A number with this many digits before or behind the point is infinite or zero; the bounds only spare the work on
a power of ten that would not fit anywhere. -/
def decimalBits (m : Nat) (e : Int) : Nat :=
  let magnitude := (Nat.toDigits 10 m).length + e
  if m = 0 ∨ magnitude < -400 then 0
  else if 400 < magnitude then infinityBits
  else nearestBits (m * Nat.pow 10 e.toNat) (Nat.pow 10 (-e).toNat)

/-- Reads the exponent that may follow the digits. -/
def exponent? : List Char → Option Int
  | [] => some 0
  | c :: cs =>
    if c = 'e' ∨ c = 'E' then
      match Sign.split cs with
      | (_, []) => none
      | (sign, body) =>
        if body.all Char.isDigit then
          match sign with
          | .plus => some (decimalValue body)
          | .minus => some (-decimalValue body)
        else none
    else none

/-- Reads digits with an optional point and an optional exponent, as the bits of the nearest number.  There has to
be a digit on at least one side of the point. -/
def unsignedDecimal? (cs : List Char) : Option Nat :=
  let whole := cs.takeWhile Char.isDigit
  let rest := cs.dropWhile Char.isDigit
  let (fraction, rest) :=
    match rest with
    | '.' :: cs => (cs.takeWhile Char.isDigit, cs.dropWhile Char.isDigit)
    | cs => ([], cs)
  if whole.isEmpty && fraction.isEmpty then none
  else
    (exponent? rest).map fun e => decimalBits (decimalValue (whole ++ fraction)) (e - fraction.length)

/-- Reads a number without its sign: a word for infinity or NaN, in any case, or a decimal. -/
def unsigned? (cs : List Char) : Option Nat :=
  let word := cs.map Char.toLower
  if word = "inf".toList ∨ word = "infinity".toList then some infinityBits
  else if word = "nan".toList then some nanBits
  else unsignedDecimal? cs

/-- Sets the sign bit for a minus. -/
def withSign (sign : Sign) (bits : Nat) : Binary64 :=
  match sign with
  | .plus => ⟨bits.toUInt64⟩
  | .minus => ⟨(bits + signBit).toUInt64⟩

/-- Reads a binary64 number. -/
def read (text : String) : Except FloatFault Binary64 :=
  match text.toList with
  | [] => .error .empty
  | cs =>
    let (sign, body) := Sign.split cs
    match unsigned? body with
    | none => .error .malformed
    | some bits => .ok (withSign sign bits)

end Binary64
end SchemaDart
