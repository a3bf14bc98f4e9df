import SchemaDart.Command.Run

/-!
# The command line
-/

namespace SchemaDart
namespace Command

/-- The fault that an error of the system is. -/
def FileFault.ofError : IO.Error → FileFault
  | .noFileOrDirectory .. => .notFound
  | .alreadyExists .. => .alreadyExists
  | .inappropriateType _ code _ => if code = 20 then .notDirectory else .isDirectory
  | e => .other (toString e)

/-- Carries out an action on the files of the system. -/
def attemptFiles {α : Type} (action : IO α) : IO (Except FileFault α) := do
  try
    return .ok (← action)
  catch e =>
    return .error (.ofError e)

instance : MonadFiles IO where
  readText path := do
    match ← attemptFiles (IO.FS.withFile path .read (·.readBinToEnd)) with
    | .error fault => return .error fault
    | .ok bytes =>
      match String.fromUTF8? bytes with
      | some text => return .ok text
      | none => return .error .notText
  makeDirectories path := do
    match ← attemptFiles (IO.FS.createDirAll path) with
    -- a file is in the way: only an attempt at the whole path tells whether it lies deeper
    | .error .alreadyExists => attemptFiles (IO.FS.createDir path)
    | result => return result
  writeText path text := attemptFiles (IO.FS.writeFile path text)

end Command
end SchemaDart

open SchemaDart.Command in
def main (args : List String) : IO UInt32 := do
  let report ← run (← IO.getEnv "RUST_LOG") args
  for entry in report.log do
    IO.eprintln ("[" ++ entry.level.name ++ "] " ++ entry.message)
  IO.print report.outcome.output
  match report.outcome with
  | .misuse => IO.eprint usage
  | .failure failure => IO.eprintln failure.message
  | _ => pure ()
  return report.outcome.exitCode.toUInt32
