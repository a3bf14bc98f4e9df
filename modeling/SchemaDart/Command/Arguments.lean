/-!
# Arguments

Arguments are read from left to right.  `--version`, `--help` and anything that is no argument of the program end
the reading where they stand; that an option stands twice, or that the snapshot has no path, shows at the end only.
An option that is given without its value keeps the value it has by default.
-/

namespace SchemaDart
namespace Command

/-- Options that are on or off. -/
inductive Switch where
  | noHeaders
  | strict
  | verbose
deriving DecidableEq

/-- Options with a value. -/
inductive Setting where
  | output
  | snapshot
  | marker
deriving DecidableEq

/-- What the program is asked to generate. -/
structure Options where
  schema : String
  output : String
  snapshot : Option String
  marker : String
  headers : Bool
  strict : Bool
  verbose : Bool
deriving DecidableEq

/-- What the arguments ask for. -/
inductive Request where
  | misuse
  | help
  | version
  | generate (options : Options)
deriving DecidableEq

/-- What has been read of the arguments.  `switches` and `settings` hold an entry for each time an option stands
there, `values` those values that were given. -/
structure Draft where
  schema : Option String
  switches : List Switch
  settings : List Setting
  values : List (Setting × String)

namespace Draft

/-- No arguments. -/
def empty : Draft := ⟨none, [], [], []⟩

/-- The value given for a setting. -/
def value? (d : Draft) (s : Setting) : Option String := d.values.lookup s

/-- What the arguments ask for when all are read. -/
def finish (d : Draft) : Request :=
  if ¬ d.switches.Nodup ∨ ¬ d.settings.Nodup then .misuse
  else if .snapshot ∈ d.settings ∧ (d.value? .snapshot).isNone then .misuse
  else
    .generate {
      schema := d.schema.getD "./schema.graphql"
      output := (d.value? .output).getD "./out/output.dart"
      snapshot := d.value? .snapshot
      marker := (d.value? .marker).getD "dynamic"
      headers := .noHeaders ∉ d.switches
      strict := .strict ∈ d.switches
      verbose := .verbose ∈ d.switches }

def addSwitch (d : Draft) (s : Switch) : Draft := { d with switches := s :: d.switches }

def addSetting (d : Draft) (s : Setting) : Draft := { d with settings := s :: d.settings }

def addValue (d : Draft) (s : Setting) (value : String) : Draft := { d with values := (s, value) :: d.values }

/-- Takes an argument that is no option; `none` for a second one. -/
def addPositional (d : Draft) (arg : String) : Option Draft :=
  if d.schema.isSome then none else some { d with schema := some arg }

end Draft

/-- What an argument that holds options leaves. -/
inductive Reading where
  /-- The reading ends with this request. -/
  | done (request : Request)
  /-- The reading goes on; the setting, if any, waits for its value. -/
  | next (draft : Draft) (waiting : Option Setting)

/-- What a word names as long option. -/
inductive LongOption where
  | switch (switch : Switch)
  | setting (setting : Setting)
  | version
  | help

def longOption? : String → Option LongOption
  | "output" => some (.setting .output)
  | "dump-json" => some (.setting .snapshot)
  | "dynamic-type" => some (.setting .marker)
  | "no-headers" => some (.switch .noHeaders)
  | "strict" => some (.switch .strict)
  | "verbose" => some (.switch .verbose)
  | "version" => some .version
  | "help" => some .help
  | _ => none

/-- A value that is attached to its option, with or without `=` between them. -/
def attached (cs : List Char) : String := String.ofList (cs.dropWhile (· = '='))

/-- Reads a long option, given without the dashes in front. -/
def readLong (d : Draft) (cs : List Char) : Reading :=
  let rest := cs.dropWhile (· ≠ '=')
  match longOption? (String.ofList (cs.takeWhile (· ≠ '='))) with
  | none => .done .misuse
  | some .version => .done .version
  | some .help => .done .help
  | some (.switch s) => .next (d.addSwitch s) none
  | some (.setting s) =>
    if rest.isEmpty then .next (d.addSetting s) (some s)
    else .next ((d.addSetting s).addValue s (attached rest)) none

/-- Reads joined short options, given without the dash in front. -/
def readShort (d : Draft) : List Char → Reading
  | [] => .next d none
  | 'v' :: cs => readShort (d.addSwitch .verbose) cs
  | 'V' :: _ => .done .version
  | 'h' :: _ => .done .help
  | ['o'] => .next (d.addSetting .output) (some .output)
  | 'o' :: cs => .next ((d.addSetting .output).addValue .output (attached cs)) none
  | _ => .done .misuse

/-- Reads arguments none of which is an option. -/
def readPositionals (d : Draft) : List String → Request
  | [] => d.finish
  | arg :: args =>
    match d.addPositional arg with
    | none => .misuse
    | some d => readPositionals d args

/-- Reads arguments; the setting, if any, waits for its value. -/
def readFrom (d : Draft) (waiting : Option Setting) : List String → Request
  | [] => d.finish
  | arg :: args =>
    match arg.toList, waiting with
    | ['-', '-'], _ => readPositionals d args
    | '-' :: '-' :: cs, _ =>
      match readLong d (cs.dropWhile (· = '-')) with
      | .done request => request
      | .next d waiting => readFrom d waiting args
    | '-' :: c :: cs, _ =>
      match readShort d (c :: cs) with
      | .done request => request
      | .next d waiting => readFrom d waiting args
    | _, some s => readFrom (d.addValue s arg) none args
    | _, none =>
      match d.addPositional arg with
      | none => .misuse
      | some d => readFrom d none args

/-- What arguments ask for. -/
def Request.ofArguments (args : List String) : Request := readFrom .empty none args

end Command
end SchemaDart
