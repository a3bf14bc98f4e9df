import SchemaDart.Document
import SchemaDart.Number.Binary64
import SchemaDart.Number.Integer
import SchemaDart.Table

/-!
# Decoded literals

Decoding gives the numbers of a literal their values and makes each object a table: a key stands where it was
written first, with the value it was given last.  It fails at the first number that cannot be read, in written
order, also under a key that is written again later.
-/

namespace SchemaDart

/-- A decoded literal. -/
inductive Value where
  | null
  | var (name : String)
  | enum (name : String)
  | int (value : Int64)
  | float (value : Binary64)
  | string (value : String)
  | boolean (value : Bool)
  | list (items : List Value)
  | object (entries : List (String × Value))

/-- The text of a string; other values have none. -/
def Value.text? : Value → Option String
  | .string s => some s
  | _ => none

namespace Literal

/-- Whether the literal is a string. -/
def isString : Literal → Bool
  | .string _ => true
  | _ => false

mutual

/-- The value of a literal. -/
def decode : Literal → Except Fault Value
  | .null => .ok .null
  | .var name => .ok (.var name)
  | .enum name => .ok (.enum name)
  | .int text =>
    match Integer.read text with
    | .ok n => .ok (.int n)
    | .error cause => .error (.invalidInt cause)
  | .float text =>
    match Binary64.read text with
    | .ok x => .ok (.float x)
    | .error cause => .error (.invalidFloat cause)
  | .string s => .ok (.string s)
  | .boolean b => .ok (.boolean b)
  | .list items => do return .list (← decodeItems items)
  | .object entries => do return .object (Table.ofEntries (← decodeEntries entries))

/-- The values of the items of a list. -/
def decodeItems : List Literal → Except Fault (List Value)
  | [] => .ok []
  | v :: vs => do return (← decode v) :: (← decodeItems vs)

/-- The values of the entries of an object, repeated keys included. -/
def decodeEntries : List (String × Literal) → Except Fault (List (String × Value))
  | [] => .ok []
  | (key, v) :: entries => do return (key, ← decode v) :: (← decodeEntries entries)

end

end Literal
end SchemaDart
