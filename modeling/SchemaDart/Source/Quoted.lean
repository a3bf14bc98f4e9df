/-!
# Escapes in quoted strings

What stands between the quotes of a string is plain text apart from escapes.  An escape names a character by a
letter, by four hexadecimal digits, by two times four that form a surrogate pair, or by any number of digits in
braces.  Whatever does not name a Unicode scalar value is no escape.
-/

namespace SchemaDart
namespace Source

/-- The value of a hexadecimal digit of either case. -/
def hexDigit? (c : Char) : Option Nat :=
  if c.isDigit then some (c.toNat - '0'.toNat)
  else if 'a' ≤ c ∧ c ≤ 'f' then some (c.toNat - 'a'.toNat + 10)
  else if 'A' ≤ c ∧ c ≤ 'F' then some (c.toNat - 'A'.toNat + 10)
  else none

/-- The value of four hexadecimal digits. -/
def hexUnit? (a b c d : Char) : Option Nat := do
  return (((← hexDigit? a) * 16 + (← hexDigit? b)) * 16 + (← hexDigit? c)) * 16 + (← hexDigit? d)

/-- The character of a Unicode scalar value. -/
def scalar? (n : Nat) : Option Char :=
  if n < 0xd800 ∨ (0xdfff < n ∧ n < 0x110000) then some (Char.ofNat n) else none

/-- The character that a high and a low surrogate name together. -/
def surrogatePair? (high low : Nat) : Option Char :=
  if 0xdc00 ≤ low ∧ low ≤ 0xdfff then scalar? (0x10000 + (high - 0xd800) * 0x400 + (low - 0xdc00)) else none

/-- The character that a letter names behind a backslash. -/
def letterEscape? : Char → Option Char
  | '"' => some '"'
  | '\\' => some '\\'
  | '/' => some '/'
  | 'b' => some '\x08'
  | 'f' => some '\x0c'
  | 'n' => some '\n'
  | 'r' => some '\r'
  | 't' => some '\t'
  | _ => none

mutual

/-- The text that the characters between two quotes stand for. -/
def unescape : List Char → Option (List Char)
  | [] => some []
  | '\\' :: 'u' :: '{' :: cs => unescapeBraced none cs
  | '\\' :: 'u' :: a :: b :: c :: d :: cs =>
    match hexUnit? a b c d with
    | none => none
    | some n =>
      if 0xd800 ≤ n ∧ n ≤ 0xdbff then
        match cs with
        | '\\' :: 'u' :: a' :: b' :: c' :: d' :: cs' => do
          let char ← surrogatePair? n (← hexUnit? a' b' c' d')
          return char :: (← unescape cs')
        | _ => none
      else do
        let char ← scalar? n
        return char :: (← unescape cs)
  | '\\' :: c :: cs => do
    let char ← letterEscape? c
    return char :: (← unescape cs)
  | ['\\'] => none
  | c :: cs => do return c :: (← unescape cs)

/-- Goes on behind an opening brace and the value of the digits read since, if any. -/
def unescapeBraced (value : Option Nat) : List Char → Option (List Char)
  | [] => none
  | '}' :: cs => do
    let char ← scalar? (← value)
    return char :: (← unescape cs)
  | c :: cs => do
    let digit ← hexDigit? c
    unescapeBraced (some (value.getD 0 * 16 + digit)) cs

end

end Source
end SchemaDart
