import PointsTo.Text.Blank

/-!
# Files

Programs and taint rules are read from files.  The library sees them as a list
of names with contents, so that everything but the access to the disk is a
function.  Names are paths: their parts are separated by slashes, and empty
parts and single dots do not count.
-/

namespace PointsTo

/-- Named texts. -/
abbrev Files := List (String × String)

/-- Why a file cannot be used. -/
inductive FileError where
  | missing | isDirectory | notADirectory
deriving DecidableEq, Repr

namespace FileError

/-- The reason in words. -/
def reason : FileError → String
  | .missing => "no such file or directory"
  | .isDirectory => "is a directory"
  | .notADirectory => "not a directory"

/-- What is reported when the file called `name` cannot be read. -/
def readMessage (error : FileError) (name : String) : String :=
  match error with
  | .isDirectory => s!"read {name}: {error.reason}"
  | _ => s!"open {name}: {error.reason}"

/-- What is reported when the file called `name` cannot be created. -/
def createMessage (error : FileError) (name : String) : String :=
  s!"open {name}: {error.reason}"

end FileError

/-- A place among files. -/
structure Path where
  isAbsolute : Bool
  parts : List (List Char)
deriving DecidableEq, Repr

namespace Path

/-- The place that a name denotes. -/
def ofName (name : String) : Path :=
  { isAbsolute := name.toList.head? = some '/'
    parts := (Text.splitWhen (· = '/') name.toList).filter fun part =>
      !part.isEmpty && part != ['.'] }

/-- Whether `inner` lies below the directory `outer`. -/
def isAbove (outer inner : Path) : Bool :=
  outer.isAbsolute == inner.isAbsolute &&
    outer.parts.length < inner.parts.length &&
    outer.parts.isPrefixOf inner.parts

/-- The directory of a place. -/
def parent (path : Path) : Path :=
  { path with parts := path.parts.dropLast }

end Path

namespace Files

/-- The file at a place. -/
def at? (files : Files) (path : Path) : Option (String × String) :=
  files.find? fun file => Path.ofName file.1 = path

/-- Whether a place is a directory: the top, or something lies below it. -/
def isDirectory (files : Files) (path : Path) : Bool :=
  path.parts.isEmpty || files.any fun file => path.isAbove (.ofName file.1)

/-- Whether a file stands where a place needs a directory. -/
def isBlocked (files : Files) (path : Path) : Bool :=
  files.any fun file => (Path.ofName file.1).isAbove path

/-- Whether a name asks for a directory. -/
def asksForDirectory (name : String) : Bool :=
  ['/'].isSuffixOf name.toList || ['/', '.'].isSuffixOf name.toList

/-- The content of the file called `name`. -/
def read (files : Files) (name : String) : Except FileError String :=
  let path := Path.ofName name
  if name.isEmpty then .error .missing
  else
    match files.at? path with
    | some file =>
        if asksForDirectory name then .error .notADirectory else .ok file.2
    | none =>
        if files.isDirectory path then .error .isDirectory
        else if files.isBlocked path then .error .notADirectory
        else .error .missing

/-- Create an empty file, in place of the one that is there. -/
def create (files : Files) (name : String) : Except FileError Files :=
  let path := Path.ofName name
  if name.isEmpty then .error .missing
  else if files.isDirectory path then .error .isDirectory
  else if files.isDirectory path.parent then
    if asksForDirectory name then .error .isDirectory
    else
      .ok ((name, "") :: files.filter fun file => Path.ofName file.1 ≠ path)
  else if files.isBlocked path then .error .notADirectory
  else .error .missing

end Files

end PointsTo
