/-!
# Faults

The causes for which a document or a literal is refused, and their wording.
-/

namespace SchemaDart

/-- Why a text is not a 64-bit integer. -/
inductive IntegerFault where
  | empty
  | invalidDigit
  | tooLarge
  | tooSmall
deriving DecidableEq

def IntegerFault.message : IntegerFault → String
  | .empty => "cannot parse integer from empty string"
  | .invalidDigit => "invalid digit found in string"
  | .tooLarge => "number too large to fit in target type"
  | .tooSmall => "number too small to fit in target type"

/-- Why a text is not a floating-point number. -/
inductive FloatFault where
  | empty
  | malformed
deriving DecidableEq

def FloatFault.message : FloatFault → String
  | .empty => "cannot parse float from empty string"
  | .malformed => "invalid float literal"

/-- What of a document cannot be carried over to Dart in full. -/
inductive Degradation where
  /-- A definition of a kind that has no counterpart in Dart. -/
  | unsupported (kind : String) (name : Option String)
  /-- An object implements an interface that the document does not define. -/
  | unknownInterface (object : String) (interface : String)
  /-- A schema definition after the first. -/
  | repeatedSchema
deriving DecidableEq

namespace Degradation

/-- The wording of a degradation that is a fault. -/
def message : Degradation → String
  | .unsupported kind (some name) => kind ++ " `" ++ name ++ "` cannot be translated to Dart"
  | .unsupported kind none => kind ++ " cannot be translated to Dart"
  | .unknownInterface object interface =>
    "type `" ++ object ++ "` implements `" ++ interface ++ "`, which is not defined in this document"
  | .repeatedSchema => "the document contains more than one schema definition"

/-- The wording of a degradation that is accepted. -/
def warning : Degradation → String
  | .unsupported kind name => "skipping definition: " ++ (Degradation.unsupported kind name).message
  | .unknownInterface object interface =>
    "type `" ++ object ++ "` implements unknown interface `" ++ interface
      ++ "`; no fields are inherited from it"
  | .repeatedSchema => Degradation.repeatedSchema.message

end Degradation

/-- Why a document or a literal is refused. -/
inductive Fault where
  | degraded (degradation : Degradation)
  | invalidInt (cause : IntegerFault)
  | invalidFloat (cause : FloatFault)
deriving DecidableEq

namespace Fault

def message : Fault → String
  | .degraded degradation => degradation.message
  | .invalidInt _ => "invalid int literal"
  | .invalidFloat _ => "invalid float literal"

/-- The wording of the fault behind this one, if there is one. -/
def cause? : Fault → Option String
  | .degraded _ => none
  | .invalidInt cause => some cause.message
  | .invalidFloat cause => some cause.message

end Fault

end SchemaDart
