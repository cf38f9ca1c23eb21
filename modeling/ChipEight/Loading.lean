import ChipEight.FileTree
import ChipEight.Memory

/-!
# Loading programs from files
-/

namespace ChipEight

/-- A program that was read from a file, and the path it was read from. -/
structure Rom where
  path : String
  program : List Byte
deriving DecidableEq, Repr

def FileTree.readRom (t : FileTree) (path : String) : Except ReadError Rom :=
  (t.read path).map fun program => ⟨path, program⟩

/-- What is printed after a program was loaded. -/
def Rom.loadedMessage (r : Rom) : String :=
  "The ROM at path " ++ r.path ++ " has been loaded successfully\n"

/-- Loads a program, and says so if tracing. -/
def Memory.loadRom (m : Memory) (tracing : Bool) (r : Rom) : Memory × String :=
  (m.load r.program, if tracing then r.loadedMessage else "")

def Memory.loadFile (m : Memory) (tracing : Bool) (files : FileTree) (path : Option String) :
    Except ReadError (Memory × String) :=
  match path with
  | none => .error .noPath
  | some path => (files.readRom path).map (m.loadRom tracing)

end ChipEight
