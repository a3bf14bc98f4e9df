/-!
# JSON texts

JSON values as far as declarations need them, and their two written forms: compact, without any blank, and pretty,
with one element a line and two blanks of indentation a level.  Members of an object are written in the order given.
-/

namespace SchemaDart

/-- A JSON value. -/
inductive Json where
  | null
  | number (n : Nat)
  | string (s : String)
  | array (items : List Json)
  | object (members : List (String × Json))

namespace Json

/-- A hexadecimal digit in lower case. -/
def hexDigit (n : Nat) : Char := Nat.digitChar (n % 16)

/-- How a character stands in a string: quote, backslash and the control characters up to U+001F are escaped. -/
def escapeChar (c : Char) : String :=
  if c = '"' then "\\\""
  else if c = '\\' then "\\\\"
  else if c = '\n' then "\\n"
  else if c = '\r' then "\\r"
  else if c = '\t' then "\\t"
  else if c = '\x08' then "\\b"
  else if c = '\x0c' then "\\f"
  else if c.toNat < 32 then "\\u00" ++ String.ofList [hexDigit (c.toNat / 16), hexDigit c.toNat]
  else String.singleton c

/-- A string between its quotes. -/
def quote (s : String) : String := "\"" ++ String.join (s.toList.map escapeChar) ++ "\""

mutual

/-- The compact form. -/
def compact : Json → String
  | .null => "null"
  | .number n => n.repr
  | .string s => quote s
  | .array items => "[" ++ ",".intercalate (compactItems items) ++ "]"
  | .object members => "\x7b" ++ ",".intercalate (compactMembers members) ++ "\x7d"

def compactItems : List Json → List String
  | [] => []
  | j :: js => compact j :: compactItems js

def compactMembers : List (String × Json) → List String
  | [] => []
  | (key, j) :: ms => (quote key ++ ":" ++ compact j) :: compactMembers ms

end

/-- The start of a line at an indentation level. -/
def indent (level : Nat) : String := String.ofList (List.replicate (2 * level) ' ')

/-- Elements between brackets, one a line at level `level + 1`; nothing at all between the brackets of no elements. -/
def block (level : Nat) (opening : String) (closing : String) : List String → String
  | [] => opening ++ closing
  | e :: es =>
    opening ++ "\n"
      ++ ",\n".intercalate ((e :: es).map fun e => indent (level + 1) ++ e)
      ++ "\n" ++ indent level ++ closing

mutual

/-- The pretty form, for a value that stands at the given indentation level. -/
def prettyAt (level : Nat) : Json → String
  | .null => "null"
  | .number n => n.repr
  | .string s => quote s
  | .array items => block level "[" "]" (prettyItems (level + 1) items)
  | .object members => block level "\x7b" "\x7d" (prettyMembers (level + 1) members)

def prettyItems (level : Nat) : List Json → List String
  | [] => []
  | j :: js => prettyAt level j :: prettyItems level js

def prettyMembers (level : Nat) : List (String × Json) → List String
  | [] => []
  | (key, j) :: ms => (quote key ++ ": " ++ prettyAt level j) :: prettyMembers level ms

end

/-- The pretty form, without a newline at the end. -/
def pretty (j : Json) : String := prettyAt 0 j

/-- A value that may be absent; absence is `null`. -/
def ofOption {α : Type} (f : α → Json) : Option α → Json
  | none => .null
  | some a => f a

end Json
end SchemaDart
