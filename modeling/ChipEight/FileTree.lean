import ChipEight.Text.Quoted
import ChipEight.Word
import Std.Data.HashMap

/-!
# File trees

The files and directories around a working directory, and reading a file by its path. Walking a path
goes name by name: `.` and the empty name stay in a directory, `..` goes up, and any step from a file
fails. Names and paths have a greatest length. Nothing but what the tree was made of is seen outside
the working directory, the directories above it apart.
-/

namespace ChipEight

/-- Why the system does not open a file. -/
inductive FileError where
  | notFound
  | notDirectory
  | isDirectory
  | nameTooLong
deriving DecidableEq, Repr

def FileError.number : FileError → Nat
  | .notFound => 2
  | .notDirectory => 20
  | .isDirectory => 21
  | .nameTooLong => 36

def FileError.description : FileError → String
  | .notFound => "No such file or directory"
  | .notDirectory => "Not a directory"
  | .isDirectory => "Is a directory"
  | .nameTooLong => "File name too long"

inductive ReadError where
  | noPath
  /-- The path was left blank. -/
  | blankPath
  /-- The path holds the character U+0000. -/
  | nullInPath
  | system (e : FileError) (path : String)
deriving DecidableEq, Repr

def ReadError.message : ReadError → String
  | .noPath => "expected str, bytes or os.PathLike object, not NoneType"
  | .blankPath => "expected str, bytes or os.PathLike object, not list"
  | .nullInPath => "embedded null byte"
  | .system e path =>
    "[Errno " ++ Text.decimal e.number ++ "] " ++ e.description ++ ": " ++ Text.quoted path

inductive Node where
  | directory
  | file (content : List Byte)
deriving DecidableEq, Repr

/-- A place: the names that lead to it from the working directory, the last one first. At the far end
`..` stands for each level above, and `/` for the root. -/
abbrev Place := List String

structure FileTree where
  nodes : Std.HashMap Place Node
deriving Repr

namespace FileTree

def components (path : String) : List String := path.splitToList (· = '/')

def step : Place → String → Place
  | place, "" => place
  | place, "." => place
  | ["/"], ".." => ["/"]
  | [], ".." => [".."]
  | ".." :: place, ".." => ".." :: ".." :: place
  | _ :: place, ".." => place
  | place, name => name :: place

/-- The place at the end of a path from the working directory. -/
def placeOf (path : String) : Place := (components path).foldl step []

/-- The places on the way along some names, the start and the end among them. -/
def placesAlong : Place → List String → List Place
  | place, [] => [place]
  | place, name :: names => place :: placesAlong (step place name) names

/-- The tree of some directories and files. The directories that a path passes through exist, and of
two files at one place the later one stays. -/
def ofEntries (directories : List String) (files : List (String × List Byte)) : FileTree :=
  ⟨.ofList <|
    (directories ++ files.map Prod.fst).flatMap (fun path =>
      (placesAlong [] (components path)).map fun place => (place, .directory)) ++
    files.map fun (path, content) => (placeOf path, .file content)⟩

/-- What stands at a place. The root, the working directory and all above it are there. -/
def node? (t : FileTree) (place : Place) : Option Node :=
  if place = ["/"] || place.all (· = "..") then some .directory else t.nodes[place]?

/-- The most bytes that a name has in UTF-8. -/
def maxNameSize : Nat := 255

/-- The most bytes that a path has in UTF-8. -/
def maxPathSize : Nat := 4095

/-- Walks along the names of a path. -/
def walk (t : FileTree) : Place → List String → Except FileError Node
  | place, names =>
    match t.node? place with
    | none => .error .notFound
    | some (.file content) => if names.isEmpty then .ok (.file content) else .error .notDirectory
    | some .directory =>
      match names with
      | [] => .ok .directory
      | name :: rest =>
        if maxNameSize < name.utf8ByteSize then .error .nameTooLong else walk t (step place name) rest

def read (t : FileTree) (path : String) : Except ReadError (List Byte) :=
  let start : Place := if path.startsWith "/" then ["/"] else []
  if path.contains '\x00' then .error .nullInPath
  else if path = "" then .error (.system .notFound path)
  else if maxPathSize < path.utf8ByteSize then .error (.system .nameTooLong path)
  else match walk t start (components path) with
    | .ok (.file content) => .ok content
    | .ok .directory => .error (.system .isDirectory path)
    | .error e => .error (.system e path)

/-- The last name on a path. -/
def baseName (path : String) : String := (components path).getLast?.getD ""

end FileTree
end ChipEight
