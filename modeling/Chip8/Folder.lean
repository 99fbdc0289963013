namespace Chip8

/-- Of all that lies outside a folder, only that it is a folder is known. -/
structure Folder where
  files : List (String × List UInt8)
deriving DecidableEq

namespace Folder

inductive Error where
  | notFound
  | isFolder
  | notAFolder
  | tooLong
  /-- No path holds the character U+0000. -/
  | noPath
deriving DecidableEq

def Error.message : Error → String
  | .notFound => "There is no such file."
  | .isFolder => "It is a folder."
  | .notAFolder => "A part of the path is no folder."
  | .tooLong => "The path is too long."
  | .noPath => "The path holds a null character."

inductive Place where
  | inside
  | outside
  | file (content : List UInt8)
deriving DecidableEq

def maxPath : Nat := 4095

def maxName : Nat := 255

/-- Empty names and single dots stay at a folder, but after a file they fail as all others do. -/
def enter (f : Folder) (place : Place) (name : String) : Except Error Place :=
  match place with
  | .file _ => .error .notAFolder
  | _ =>
    if name = "" ∨ name = "." then .ok place
    else if name = ".." then .ok .outside
    else if maxName < name.utf8ByteSize then .error .tooLong
    else match place, f.files.lookup name with
      | .inside, some content => .ok (.file content)
      | _, _ => .error .notFound

def read (f : Folder) (path : String) : Except Error (List UInt8) := do
  if path.toList.contains '\x00' then throw .noPath
  if path = "" then throw .notFound
  if maxPath < path.utf8ByteSize then throw .tooLong
  let start := if path.toList.head? = some '/' then Place.outside else .inside
  match ← (path.splitOn "/").foldlM f.enter start with
  | .file content => return content
  | _ => throw .isFolder

end Folder

end Chip8
