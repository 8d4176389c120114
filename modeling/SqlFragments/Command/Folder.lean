import SqlFragments.Command.Outcome

/-! # Folders in memory

A folder of files held in memory, for running commands without a file system. A path is followed
name by name, from the folder or, if it is absolute, from the root of everything. Outside of the
folder there are only directories, and none of them can be entered by its name. -/

namespace SqlFragments.Command

/-- Files by their names. -/
abbrev Folder := Dict ByteArray

/-- Where a path has led so far. -/
inductive Place where
  /-- The folder itself. -/
  | inside
  /-- A directory outside of the folder. -/
  | outside
  /-- A file with these contents. -/
  | file (bytes : ByteArray)

/-- How many bytes a path may have. -/
def longestPath : Nat := 4095

/-- How many bytes a name may have. -/
def longestName : Nat := 255

/-- The place that a name leads to. -/
def Folder.enter (folder : Folder) (place : Place) (name : String) : Except ReadError Place :=
  if longestName < name.utf8ByteSize then .error .nameTooLong
  else
    match place, folder.get? name with
    | .inside, some bytes => .ok (.file bytes)
    | _, _ => .error .notFound

/-- Goes on by one step. From a file there is no way on, not even one that stays. -/
def Folder.step (folder : Folder) (place : Place) (name : String) : Except ReadError Place :=
  match place with
  | .file _ => .error .notDirectory
  | place =>
    if name = "" || name = "." then .ok place
    else if name = ".." then .ok .outside
    else folder.enter place name

/-- Follows the names along a path, up to the first step that fails. -/
def Folder.follow (folder : Folder) (place : Place) : List String → Except ReadError Place
  | [] => .ok place
  | name :: names =>
    match folder.step place name with
    | .error e => .error e
    | .ok place => folder.follow place names

/-- Where a path begins. -/
def Place.startOf (path : String) : Place :=
  if path.toList.head? = some '/' then .outside else .inside

/-- What a path leads to. -/
def Folder.read (folder : Folder) (path : String) : Content :=
  if longestPath < path.utf8ByteSize then .error .nameTooLong
  else
    match folder.follow (Place.startOf path) (path.splitOn "/") with
    | .error e => .error e
    | .ok (.file bytes) => .ok bytes
    | .ok _ => .error .isDirectory

end SqlFragments.Command
