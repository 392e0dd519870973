/-
  SceneScript.Command.Program — the commands of the generator.

  A command is a `Program`: it may ask for a file to be read or written and goes on with
  the answer, until it finishes with an exit code and what it prints. `Program.run`
  carries a program out on a directory that is a value. A program that fails has
  printed nothing and written nothing.
-/
import SceneScript.Command.Directory
import SceneScript.Script.OutputFile

namespace SceneScript

/-- What a finished command leaves behind. -/
structure Report where
  code : UInt32
  out : String
  err : String
  deriving DecidableEq

inductive Program where
  | finish (report : Report)
  | read (path : String) (next : Except FileError String → Program)
  | write (path text : String) (next : Except FileError Unit → Program)

namespace Program

/-- Carries out a program on a directory. -/
def run : Program → Directory → Report × Directory
  | .finish report, d => (report, d)
  | .read path next, d => run (next (d.read path)) d
  | .write path text next, d =>
    match d.write path text with
    | .ok d' => run (next (.ok ())) d'
    | .error e => run (next (.error e)) d

/-! ## Messages -/

/-- Marks a text for a terminal. -/
def styled (codes : List String) (text : String) : String :=
  String.join (codes.map fun code => "\x1b[" ++ code ++ "m") ++ text ++ "\x1b[0m"

def red : String := "38;5;9"

def green : String := "38;5;10"

def cyan : String := "38;5;14"

def bold : String := "1"

def dim : String := "2"

/-- Ends with an error. -/
def fail (message : String) : Program :=
  .finish ⟨1, "", styled [red, bold] "Error:" ++ " " ++ message ++ "\n"⟩

def generateUsage : String := "canvas-codegen generate <scene.json> <output.js>"

def printUsage : String := "canvas-codegen print <scene.json>"

def regionsUsage : String := "canvas-codegen regions <output.js>"

/-- How the commands are called. -/
def usage : String :=
  "canvas-codegen: scene model to Phaser script generator\n\nUsage:\n  " ++ generateUsage ++ "\n  " ++ printUsage
    ++ "\n  " ++ regionsUsage

/-- Why a scene could not be read. -/
def readErrorMessage : ReadError → String
  | .form .malformed => "malformed JSON"
  | .form .unfinished => "unfinished JSON"
  | .data e => e.message

def outcomeLabel (outcome : Outcome) : String :=
  match outcome with
  | .created => styled [green, bold] outcome.name
  | .updated => styled [green, bold] outcome.name
  | .unchanged => styled [dim] outcome.name

/-! ## Files -/

/-- Reads a scene. -/
def withModel (path : String) (next : Model → Program) : Program :=
  .read path fun
    | .error e => fail ("Failed to read " ++ path ++ ": " ++ e.message)
    | .ok text =>
      match Model.codec.ofText text with
      | .error e => fail ("Failed to parse " ++ path ++ ": Invalid scene model: " ++ readErrorMessage e)
      | .ok m => next m

/-- The path with one more name. A slash goes between, unless the path is empty or ends in one. -/
def joined (path name : String) : String :=
  match path.toList.getLast? with
  | none => name
  | some c => if c = '/' then path ++ name else path ++ "/" ++ name

/-- Where the configuration stands in the user's home. An empty home is the directory that the run starts from. -/
def configPath (home : String) : String := joined (joined (joined home ".config") "canvas-codegen") "codegen.json"

/-- Reads the configuration; the defaults stand in for one that cannot be read. -/
def withConfig (home : String) (next : Config → Program) : Program :=
  .read (configPath home) fun
    | .error _ => next {}
    | .ok text => next (Config.load (some text)).config

/-- Reads the earlier script, if there is one. -/
def withPrevious (path : String) (next : Option String → Program) : Program :=
  .read path fun
    | .ok text => next (some text)
    | .error .notFound => next none
    | .error e => fail ("Failed to read " ++ path ++ ": " ++ e.message)

/-- Writes a script unless it is there already. -/
def keepScript (outcome : Outcome) (path text : String) (next : Program) : Program :=
  match outcome with
  | .unchanged => next
  | _ =>
    .write path text fun
      | .error e => fail ("Failed to write " ++ path ++ ": " ++ e.message)
      | .ok () => next

/-! ## Commands -/

/-- Makes the script of a scene anew. -/
def generate (home scenePath outputPath : String) : Program :=
  withModel scenePath fun m =>
    withConfig home fun config =>
      withPrevious outputPath fun previous =>
        let text := SceneScript.generate config m previous
        let outcome := Outcome.compare previous text
        keepScript outcome outputPath text
          (.finish ⟨0, "", outcomeLabel outcome ++ " " ++ m.settings.className ++ " ("
            ++ Decimal.natText m.world.length ++ " top-level objects) " ++ scenePath ++ " -> "
            ++ outputPath ++ "\n"⟩)

/-- Prints the script of a scene. -/
def print (home scenePath : String) : Program :=
  withModel scenePath fun m =>
    withConfig home fun config => .finish ⟨0, SceneScript.generate config m none, ""⟩

/-- A heading and the text of a region, without the line feeds around it. -/
def regionReport (name text : String) : String :=
  styled [cyan, bold] ("── " ++ name ++ " ──") ++ "\n" ++ Text.trimLineFeeds text ++ "\n"

/-- Prints the regions of a script. -/
def regions (home path : String) : Program :=
  .read path fun
    | .error e => fail ("Failed to read " ++ path ++ ": " ++ e.message)
    | .ok text =>
      withConfig home fun config =>
        let found := Regions.recover (some text) config.bodyPlaceholder config.trailingPlaceholder
        .finish ⟨0,
          regionReport "pre-init" found.preInit ++ regionReport "post-init" found.postInit
            ++ regionReport "trailing" found.trailing, ""⟩

/-- The command that the arguments ask for. Arguments past the needed ones are ignored. -/
def ofArguments (home : String) : List String → Program
  | "generate" :: scene :: output :: _ => generate home scene output
  | "generate" :: _ => fail generateUsage
  | "print" :: scene :: _ => print home scene
  | "print" :: _ => fail printUsage
  | "regions" :: path :: _ => regions home path
  | "regions" :: _ => fail regionsUsage
  | _ => fail usage

end Program

end SceneScript
