/-!
# Log entries
-/

namespace SchemaDart

/-- The severity of a log entry. -/
inductive Level where
  | debug
  | info
  | warn
deriving DecidableEq

/-- The name of a level as it is printed. -/
def Level.name : Level → String
  | .debug => "DEBUG"
  | .info => "INFO"
  | .warn => "WARN"

/-- One line of a log. -/
structure LogEntry where
  level : Level
  message : String
deriving DecidableEq

end SchemaDart
