import SchemaDart.Command.Arguments
import SchemaDart.Command.FileSystem
import SchemaDart.Dart.Snapshot
import SchemaDart.Generate
import SchemaDart.Source.Grammar.Definition

/-!
# Running the program

A run reads the schema, generates the library, writes the snapshot if one is asked for, and then the Dart text.  The
first step that fails ends the run; what earlier steps wrote stays.
-/

namespace SchemaDart
namespace Command

/-- Why a run fails. -/
inductive Failure where
  | unreadable (schema : String) (fault : FileFault)
  | unparsable (schema : String)
  | notGenerated (schema : String) (fault : Fault)
  | noDirectory (path : String) (fault : FileFault)
  | unwritable (path : String) (fault : FileFault)

/-- The wording of a failure and of what is behind it. -/
def Failure.message : Failure → String
  | .unreadable schema fault => because ("could not read schema " ++ schema) fault.message
  | .unparsable schema => "Error: could not parse schema " ++ schema
  | .notGenerated schema fault => because ("could not generate Dart for " ++ schema) fault.message
  | .noDirectory path fault => because ("could not create directory " ++ path) fault.message
  | .unwritable path fault => because ("could not write " ++ path) fault.message
where
  because (context : String) (cause : String) : String :=
    "Error: " ++ context ++ "\n\nCaused by:\n    " ++ cause

/-- How the program ends. -/
inductive Outcome where
  | misuse
  | help
  | version
  | success
  | failure (failure : Failure)

/-- The end of the program and its log. -/
structure Report where
  outcome : Outcome
  log : List LogEntry

section

variable {m : Type → Type} [Monad m] [MonadFiles m]

/-- Writes a file, and before it the directories that it needs. -/
def writeFile (path : String) (text : String) : m (Except Failure Unit) := do
  let parent := Path.parent path
  let made ← if parent.isEmpty then pure (.ok ()) else MonadFiles.makeDirectories parent
  match made with
  | .error fault => return .error (.noDirectory parent fault)
  | .ok () =>
    match ← MonadFiles.writeText path text with
    | .error fault => return .error (.unwritable path fault)
    | .ok () => return .ok ()

/-- Writes the snapshot if there is a path for it, then the Dart text. -/
def writeLibrary (options : Options) (library : Library) : m (Except Failure Unit) := do
  let written ← match options.snapshot with
    | none => pure (.ok ())
    | some path => writeFile path library.snapshot
  match written with
  | .error failure => return .error failure
  | .ok () => writeFile options.output library.text

/-- The configuration that the options ask for. -/
def Options.config (o : Options) : Config := ⟨o.marker, o.headers, o.strict⟩

/-- Generates what the options ask for, with the whole log.  `parse?` reads the document from the text of a schema. -/
def generateFiles (parse? : String → Option Document) (options : Options) : m Report := do
  match ← MonadFiles.readText options.schema with
  | .error fault => return ⟨.failure (.unreadable options.schema fault), []⟩
  | .ok text =>
    match parse? text with
    | none => return ⟨.failure (.unparsable options.schema), []⟩
    | some doc =>
      let parsed : LogEntry :=
        ⟨.debug, "parsed " ++ doc.length.repr ++ " definition(s) from " ++ options.schema⟩
      let generated := generate options.config doc
      let log := parsed :: generated.events.map Event.entry
      match generated.result with
      | .error fault => return ⟨.failure (.notGenerated options.schema fault), log⟩
      | .ok library =>
        match ← writeLibrary options library with
        | .error failure => return ⟨.failure failure, log⟩
        | .ok () =>
          let wrote : LogEntry :=
            ⟨.info, "wrote " ++ library.size.repr ++ " declaration(s) to " ++ options.output⟩
          return ⟨.success, log ++ [wrote]⟩

end

/-- From which level on entries of the log are shown. -/
inductive Verbosity where
  | silent
  | warn
  | info
  | debug

namespace Verbosity

/-- Whether entries of a level are shown. -/
def shows : Verbosity → Level → Bool
  | .silent, _ => false
  | .warn, level => level = .warn
  | .info, level => level = .warn || level = .info
  | .debug, _ => true

/-- The verbosity of a name, in upper or lower case.  There are no entries of the levels `off` and `error`.  What is
no name of a level shows none either: directives that set a level for a single module are not read. -/
def ofName (name : String) : Verbosity :=
  let level := name.toLower
  if level = "warn" then .warn
  else if level = "info" then .info
  else if level = "debug" || level = "trace" then .debug
  else .silent

/-- The verbosity that the environment sets, or else the options. -/
def choose (environment : Option String) (verbose : Bool) : Verbosity :=
  match environment with
  | some name => ofName name
  | none => if verbose then .debug else .warn

end Verbosity

section

variable {m : Type → Type} [Monad m] [MonadFiles m]

/-- Runs the program, with `parse?` to read the schema.  `environment` is the verbosity that the environment sets. -/
def runWith (parse? : String → Option Document) (environment : Option String) (args : List String) : m Report := do
  match Request.ofArguments args with
  | .misuse => return ⟨.misuse, []⟩
  | .help => return ⟨.help, []⟩
  | .version => return ⟨.version, []⟩
  | .generate options =>
    let report ← generateFiles parse? options
    let verbosity := Verbosity.choose environment options.verbose
    return { report with log := report.log.filter (verbosity.shows ·.level) }

/-- Runs the program. -/
def run (environment : Option String) (args : List String) : m Report := runWith Document.parse? environment args

end

/-- What the program prints for `--help`, and as a complaint about its arguments. -/
def usage : String :=
  "USAGE:\n    sdl-dart [FLAGS] [OPTIONS] [--] [schema]\n\n"
    ++ "FLAGS:\n    -h, --help          Prints help information\n"
    ++ "        --no-headers    Don't write header comments\n"
    ++ "        --strict        Fail on what Dart cannot express instead of skipping it\n"
    ++ "    -V, --version       Prints version information\n"
    ++ "    -v, --verbose       Log each generated declaration\n\n"
    ++ "OPTIONS:\n        --dump-json <path>      Also write a JSON snapshot of the declarations\n"
    ++ "        --dynamic-type <name>   Type name used for custom scalars [default: dynamic]\n"
    ++ "    -o, --output <path>         Where to write the Dart source [default: ./out/output.dart]\n\n"
    ++ "ARGS:\n    <schema>    The GraphQL schema to read [default: ./schema.graphql]\n"

namespace Outcome

/-- The exit code. -/
def exitCode : Outcome → Nat
  | .misuse => 1
  | .failure _ => 1
  | _ => 0

/-- What goes to the standard output. -/
def output : Outcome → String
  | .help => usage
  | .version => "sdl-dart 0.1.0\n"
  | _ => ""

end Outcome
end Command
end SchemaDart
