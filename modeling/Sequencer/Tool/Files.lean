/-! Files by their names, and a folder of files in memory. -/
namespace Sequencer.Tool

inductive FileError
  | missing
  | notFolder
  | isFolder
  | longName
  | other (text : String)
deriving DecidableEq, Repr

def FileError.message : FileError → String
  | .missing => "No such file or directory (os error 2)"
  | .notFolder => "Not a directory (os error 20)"
  | .isFolder => "Is a directory (os error 21)"
  | .longName => "File name too long (os error 36)"
  | .other text => text

/-- The parts of a file's name between slashes. Empty parts and single points say nothing. -/
def nameParts (name : String) : List String :=
  (name.splitOn "/").filter fun part => part ≠ "" && part ≠ "."

/-- What follows the last point in the last part of a file's name, unless that point begins
the part. -/
def extension? (name : String) : Option String :=
  match (nameParts name).getLast? with
  | none => none
  | some part =>
    let afterLast := (part.toList.reverse.takeWhile (· ≠ '.')).reverse
    let size := part.length - afterLast.length
    if part = ".." || size ≤ 1 then none else some (String.ofList afterLast)

/-- The files of a system whose folders hold nothing else. A file of the working folder goes by
its name there, one of a folder around it has `../` before its name, and one of a folder at the
top of the system has the whole path. -/
structure Folder where
  files : List (String × Array UInt8) := []

/-- The longest part of a name, and the longest name, in bytes. -/
def maxPart : Nat := 255

def maxName : Nat := 4095

def topFolders : List String :=
  ["bin", "dev", "etc", "home", "lib", "mnt", "opt", "proc", "root", "run", "sbin", "srv", "sys",
    "tmp", "usr", "var"]

/-- The file that is always empty, whatever is written to it. -/
def nullFile : String := "/dev/null"

namespace Folder

/-- Where a name leads, part by part: to a folder, named by what stands before the names of its
files, or to a file. -/
inductive Target
  | folder (path : String)
  | file (name : String) (bytes : Array UInt8)
  /-- No file, but there can be one. -/
  | free (name : String)
deriving DecidableEq, Repr

/-- The folder that a folder is in. The top of the system is in itself. -/
def above (path : String) : String := if path.startsWith "/" then "/" else "../" ++ path

def follow (folder : Folder) (target : Target) (part : String) : Except FileError Target :=
  match target with
  | .file .. => .error .notFolder
  | .free _ => .error .missing
  | .folder path =>
    let name := path ++ part
    if part = "." then .ok target
    else if part = ".." then .ok (.folder (above path))
    else if maxPart < part.utf8ByteSize then .error .longName
    else if path = "/" && topFolders.contains part then .ok (.folder (name ++ "/"))
    else if name = nullFile then .ok (.file name #[])
    else
      match folder.files.lookup name with
      | some bytes => .ok (.file name bytes)
      | none => .ok (.free name)

def allParts (name : String) : List String := (name.splitOn "/").filter (· ≠ "")

def lead (folder : Folder) (name : String) (parts : List String) : Except FileError Target :=
  if name = "" then .error .missing
  else if maxName < name.utf8ByteSize then .error .longName
  else parts.foldlM folder.follow (.folder (if name.startsWith "/" then "/" else ""))

/-- Reads a file. A slash at the end of a name asks for a folder. -/
def read (folder : Folder) (name : String) : Except FileError (Array UInt8) := do
  match ← folder.lead name (allParts name) with
  | .file _ bytes => if name.endsWith "/" then throw .notFolder else return bytes
  | .free _ => throw .missing
  | .folder _ => throw .isFolder

/-- The folder with a file of the given bytes. A file that had the name is replaced. -/
def put (folder : Folder) (name : String) (bytes : Array UInt8) : Folder :=
  if name = nullFile then folder else ⟨(name, bytes) :: folder.files.filter fun file => file.1 ≠ name⟩

/-- Writes a file. If its name ends in a slash, it is refused before the last part is looked
up. -/
def write (folder : Folder) (name : String) (bytes : Array UInt8) : Except FileError Folder :=
  if name.endsWith "/" then do
    match ← folder.lead name (allParts name).dropLast with
    | .file .. => throw .notFolder
    | .free _ => throw .missing
    | .folder _ => throw .isFolder
  else do
    match ← folder.lead name (allParts name) with
    | .file name _ | .free name => return folder.put name bytes
    | .folder _ => throw .isFolder

end Folder
end Sequencer.Tool
