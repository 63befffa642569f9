import TypedStyle.Command.Run

/-!
A directory of files without subdirectories, as a file system of its own. The directories above it
exist, and nothing in them is known. A path is walked part by part, and the first part that leads
nowhere decides what is wrong with it.
-/

namespace TypedStyle.Command

inductive FileError where
  | missing
  | isDirectory
  | notDirectory
  | nameTooLong
  deriving DecidableEq

def FileError.message : FileError → String
  | .missing => "No such file or directory (os error 2)"
  | .isDirectory => "Is a directory (os error 21)"
  | .notDirectory => "Not a directory (os error 20)"
  | .nameTooLong => "File name too long (os error 36)"

inductive Side where
  | inside
  | outside
  deriving DecidableEq

structure Route where
  start : Side
  /-- What slashes divide, `.` and `..` included. -/
  parts : List String
  /-- Whether a slash follows the last part. -/
  slashed : Bool
  deriving DecidableEq

def Route.pieces : List Char → List (List Char)
  | [] => [[]]
  | '/' :: later => [] :: pieces later
  | char :: later => (pieces later).modifyHead (char :: ·)

def Route.ofString (text : String) : Except FileError Route :=
  if 4095 < text.utf8ByteSize then .error .nameTooLong
  else .ok ⟨if text.toList.head? = some '/' then .outside else .inside,
    ((Route.pieces text.toList).filter (! ·.isEmpty)).map String.ofList,
    text.toList.getLast? = some '/'⟩

abbrev Directory := List (String × ByteArray)

namespace Directory

inductive Target where
  | directory
  | file (side : Side) (name : String)
  deriving DecidableEq

def find (directory : Directory) (side : Side) (name : String) :
    Except FileError (Option ByteArray) :=
  if 255 < name.utf8ByteSize then .error .nameTooLong
  else match side with
    | .inside => .ok (directory.lookup name)
    | .outside => .ok none

def enter (directory : Directory) (side : Side) (part : String) : Except FileError Side :=
  if part = "." then .ok side
  else if part = ".." then .ok .outside
  else match directory.find side part with
    | .ok (some _) => .error .notDirectory
    | .ok none => .error .missing
    | .error error => .error error

/-- Steps into every part but the last, which may name a file that does not exist. -/
def walk (directory : Directory) (side : Side) : List String → Except FileError Target
  | [] => .ok .directory
  | [part] => .ok (if part = "." ∨ part = ".." then .directory else .file side part)
  | part :: later =>
      match directory.enter side part with
      | .ok side => directory.walk side later
      | .error error => .error error

def read (directory : Directory) (path : String) : Except FileError ByteArray := do
  let route ← Route.ofString path
  match ← directory.walk route.start route.parts with
  | .directory => .error .isDirectory
  | .file side name =>
      match ← directory.find side name with
      | some content => if route.slashed then .error .notDirectory else .ok content
      | none => .error .missing

/-- Gives the file its new content, or leaves the directory as it is. A name with a slash after it
is a directory's, and outside nothing is written. -/
def write (directory : Directory) (path : String) (content : ByteArray) :
    Except FileError Directory := do
  let route ← Route.ofString path
  match ← directory.walk route.start route.parts with
  | .directory => .error .isDirectory
  | .file side name =>
      if route.slashed then .error .isDirectory
      else
        let _ ← directory.find side name
        match side with
        | .inside => .ok ((name, content) :: directory.filter fun file => file.1 != name)
        | .outside => .error .missing

def system : FileSystem String Directory where
  name := id
  read directory path := (directory.read path).mapError FileError.message
  write directory path content :=
    match directory.write path content with
    | .ok after => (after, .ok ())
    | .error error => (directory, .error error.message)

end Directory

end TypedStyle.Command
