import ConsoleScript.Text.Bytes

/-! # Paths of files

A path is a list of components between slashes. `clean` gives the shortest path that names the same
place as long as no component is a link: empty components and `.` vanish, and `..` takes the
component before it along. Only the text of the path is looked at. -/

namespace ConsoleScript

namespace Path

/-- The byte between components. -/
def slash : UInt8 := 0x2f

/-- The component that names the directory itself. -/
def here : Bytes := [0x2e]

/-- The component that names the directory above. -/
def above : Bytes := [0x2e, 0x2e]

/-- The pieces of a text between separators; there is always one more than separators. -/
def pieces (separator : UInt8) : Bytes → List Bytes
  | [] => [[]]
  | byte :: rest =>
    if byte = separator then [] :: pieces separator rest
    else
      match pieces separator rest with
      | [] => [[byte]]
      | piece :: more => (byte :: piece) :: more

/-- Whether a path starts at the root. -/
def isRooted (path : Bytes) : Bool :=
  path.head? = some slash

/-- Adds a component to the components of a clean path, the last of which comes first. -/
def push (rooted : Bool) (stack : List Bytes) (component : Bytes) : List Bytes :=
  if component = [] ∨ component = here then stack
  else if component = above then
    match stack with
    | [] => if rooted then [] else [above]
    | top :: below => if top = above then above :: top :: below else below
  else component :: stack

/-- The shortest path for the same place. -/
def clean (path : Bytes) : Bytes :=
  let rooted := isRooted path
  let components := ((pieces slash path).foldl (push rooted) []).reverse
  if rooted then slash :: Bytes.joinWith [slash] components
  else if components.isEmpty then here
  else Bytes.joinWith [slash] components

/-- The clean path of a name inside a directory. -/
def join (directory name : Bytes) : Bytes :=
  clean (directory ++ slash :: name)

end Path

end ConsoleScript
