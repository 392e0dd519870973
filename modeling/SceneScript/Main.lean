/-
  SceneScript.Main — the command line.

  Carries out a command on the file system: the only part of the generator that reads,
  writes or prints.
-/
import SceneScript.Command.Program

namespace SceneScript

/-- The reason for which the system refused a file. -/
def FileError.ofSystem : IO.Error → FileError
  | .noFileOrDirectory _ _ _ => .notFound
  | e => .other (toString e)

/-- The text of a file. -/
def readText (path : String) : IO (Except FileError String) := do
  try
    let bytes ← IO.FS.readBinFile path
    match String.fromUTF8? bytes with
    | some text => return .ok text
    | none => return .error .notText
  catch e => return .error (.ofSystem e)

def writeText (path text : String) : IO (Except FileError Unit) := do
  try
    IO.FS.writeFile path text
    return .ok ()
  catch e => return .error (.ofSystem e)

/-- Carries out a program on the file system. -/
def Program.perform : Program → IO UInt32
  | .finish report => do
    IO.print report.out
    IO.eprint report.err
    return report.code
  | .read path next => do perform (next (← readText path))
  | .write path text next => do perform (next (← writeText path text))

end SceneScript

def main (args : List String) : IO UInt32 := do
  let home := (← IO.getEnv "HOME").getD "."
  (SceneScript.Program.ofArguments home args).perform
