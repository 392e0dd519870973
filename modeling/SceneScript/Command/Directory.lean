/-
  SceneScript.Command.Directory — a directory of files, as a value.

  What a run of a command reads and writes is a directory and what lies below it. A path
  is resolved from there, or from the root, step by step: a step can only be taken out of
  a directory, an empty step or a dot stays, two dots go back. The root and the
  directories above are there, and at first nothing else is known to be in them. A file
  holds any bytes, or cannot be opened, and some places cannot be written. Reading and
  writing fail for the reasons that an operating system gives, and what fails changes
  nothing.
-/

namespace SceneScript

/-- Why a file cannot be read or written. -/
inductive FileError where
  | notFound
  | notDirectory
  | isDirectory
  | nameTooLong
  | notText
  | other (description : String)
  deriving DecidableEq

def FileError.message : FileError → String
  | .notFound => "No such file or directory (os error 2)"
  | .notDirectory => "Not a directory (os error 20)"
  | .isDirectory => "Is a directory (os error 21)"
  | .nameTooLong => "File name too long (os error 36)"
  | .notText => "stream did not contain valid UTF-8"
  | .other description => description

/-- What a file holds: a text, bytes that are no text, or what the system does not show. -/
inductive Content where
  | text (s : String)
  | bytes (b : List UInt8) (noText : String.fromUTF8? ⟨b.toArray⟩ = none)
  | closed (reason : String)
  deriving DecidableEq

/-- The files below a directory, each by the names on the way to it; `/` stands for the root, and leading `..` go up. -/
structure Directory where
  files : List (List String × Content)
  /-- Places that cannot be written, each with the system's reason. -/
  guarded : List (List String × String) := []
  deriving DecidableEq

/-- What stands at a place. -/
inductive Entry where
  | nothing
  | directory
  | file (content : Content)
  deriving DecidableEq

namespace Directory

/-- The names in a path: slashes stand between them. -/
def nameChars : List Char → List (List Char)
  | [] => [[]]
  | c :: cs =>
    if c = '/' then [] :: nameChars cs
    else match nameChars cs with
      | [] => [[c]]
      | name :: more => (c :: name) :: more

def names (path : String) : List String := (nameChars path.toList).map String.ofList

/-- The directories that a path may start from or go up to, other than the directory itself. -/
def isAnchor (name : String) : Bool := name == "/" || name == ".."

def entry (d : Directory) (place : List String) : Entry :=
  match d.files.lookup place with
  | some content => .file content
  | none =>
    if place.all isAnchor || d.files.any (fun f => place.isPrefixOf f.1) then .directory else .nothing

/-- The place one step back. The root has none before it; before the directory and what is above it stands the next
directory above. -/
def back (place : List String) : List String :=
  if place = ["/"] then place
  else if place.all isAnchor then place ++ [".."]
  else place.dropLast

/-- The most bytes that one name in a path may have. -/
def nameLimit : Nat := 255

/-- The most bytes that a whole path may have. -/
def pathLimit : Nat := 4095

/-- Follows names from a place. The place before each name must be a directory; only there a name is found to be too
long. -/
def follow (d : Directory) : List String → List String → Except FileError (List String)
  | place, [] => .ok place
  | place, name :: rest =>
    match d.entry place with
    | .nothing => .error .notFound
    | .file _ => .error .notDirectory
    | .directory =>
      if name = "" ∨ name = "." then follow d place rest
      else if name = ".." then follow d (back place) rest
      else if nameLimit < name.utf8ByteSize then .error .nameTooLong
      else follow d (place ++ [name]) rest

/-- Follows the names of a path: from the root when the path starts with a slash. -/
def followNames (d : Directory) : List String → Except FileError (List String)
  | "" :: rest => d.follow ["/"] rest
  | ns => d.follow [] ns

/-- The place that a path leads to. The empty path leads nowhere, and too long a path is not followed at all. -/
def resolve (d : Directory) (path : String) : Except FileError (List String) :=
  if path = "" then .error .notFound
  else if pathLimit < path.utf8ByteSize then .error .nameTooLong
  else d.followNames (names path)

/-- Reads a file. -/
def read (d : Directory) (path : String) : Except FileError String := do
  let place ← d.resolve path
  match d.entry place with
  | .nothing => .error .notFound
  | .directory => .error .isDirectory
  | .file (.text s) => .ok s
  | .file (.bytes _ _) => .error .notText
  | .file (.closed reason) => .error (.other reason)

/-- The directory with a text at a place. -/
def put (d : Directory) (place : List String) (text : String) : Directory :=
  { d with files := (place, .text text) :: d.files.filter fun f => f.1 != place }

/-- Why a path that leads nowhere cannot be written. One that ends with a slash names a directory, even a new one. -/
def writeError (d : Directory) (path : String) : FileError → FileError
  | .notFound =>
    let ns := names path
    let bare := ns.reverse.dropWhile (· = "") |>.reverse
    match d.followNames bare with
    | .error e => e
    | .ok place => if bare.length < ns.length ∧ d.entry place = .nothing then .isDirectory else .notFound
  | e => e

/-- Writes a file, which may be new; its directory may not. What the file held before does not matter. -/
def write (d : Directory) (path text : String) : Except FileError Directory :=
  match d.resolve path with
  | .error e => .error (d.writeError path e)
  | .ok place =>
    match d.entry place with
    | .directory => .error .isDirectory
    | _ =>
      match d.guarded.lookup place with
      | some reason => .error (.other reason)
      | none => .ok (d.put place text)

/-- A directory with files at these paths. -/
def ofFiles (files : List (String × String)) : Directory :=
  { files := files.map fun (path, text) => ((names path).filter fun n => n ≠ "" ∧ n ≠ ".", .text text) }

end Directory

end SceneScript
