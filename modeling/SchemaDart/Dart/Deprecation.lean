import SchemaDart.Literal.Value

/-!
# Deprecation marks

A field or argument is deprecated by the directive `@deprecated`.  In Dart the mark is `@deprecated` or, with the
reasons given, `@Deprecated(…)`.  Reasons are arbitrary texts; escaping keeps each inside one double-quoted literal
on one line and keeps `$` from starting an interpolation.
-/

namespace SchemaDart

/-- A deprecation mark.  `reasons` may be empty: the directive then had arguments, but none that is a string. -/
inductive Deprecation where
  | bare
  | reasons (texts : List String)
deriving DecidableEq

namespace Deprecation

/-- How a character stands in a double-quoted Dart literal. -/
def escapeChar : Char → String
  | '\\' => "\\\\"
  | '"' => "\\\""
  | '$' => "\\$"
  | '\n' => "\\n"
  | '\r' => "\\r"
  | '\t' => "\\t"
  | c => String.singleton c

/-- A text as double-quoted Dart literal. -/
def quote (s : String) : String := "\"" ++ String.join (s.toList.map escapeChar) ++ "\""

/-- The mark as Dart text. -/
def text : Deprecation → String
  | .bare => "@deprecated"
  | .reasons texts => "@Deprecated(" ++ ", ".intercalate (texts.map quote) ++ ")"

/-- The texts of the arguments that are strings, in written order.  Other arguments are not decoded. -/
def stringArguments : List (String × Literal) → Except Fault (List String)
  | [] => .ok []
  | (_, v) :: rest =>
    if v.isString then do
      let value ← v.decode
      return value.text?.toList ++ (← stringArguments rest)
    else stringArguments rest

/-- The mark that a list of directives sets.  Only the first directive named `deprecated` counts. -/
def ofDirectives (directives : List Directive) : Except Fault (Option Deprecation) :=
  match directives.find? (·.name = "deprecated") with
  | none => .ok none
  | some d =>
    if d.arguments.isEmpty then .ok (some .bare)
    else do return some (.reasons (← stringArguments d.arguments))

end Deprecation
end SchemaDart
