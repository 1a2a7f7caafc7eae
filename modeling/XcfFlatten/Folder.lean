import XcfFlatten.Render

/-!
# Folders in memory

A folder without subfolders that lives in memory, as a place from which documents are loaded and in
which pictures are saved (`Folder.access`). What is outside of it is not known: nothing is found
there, and what is saved there is not seen again.
-/

namespace XcfFlatten

/-- A folder with the files put there and what there is to see in those saved since. -/
structure Folder where
  files : List (String × Bytes)
  pictures : List (String × Option Picture) := []

namespace Folder

/-- How many bytes a part of a path has at most. -/
def longestName : Nat := 255

/-- How many bytes a path has at most. -/
def longestPath : Nat := 4095

/-- Where a path leads. -/
inductive Place where
  | directory
  /-- A name in the folder, or outside of it. -/
  | entry (inside : Bool) (name : String)
  deriving DecidableEq

/-- Whether there is a file of the given name. -/
def contains (folder : Folder) (name : String) : Bool :=
  (folder.files.lookup name).isSome || (folder.pictures.lookup name).isSome

/-- Follows the parts of a path, from the folder or from outside of it. Whether the last of them is
there does not matter. -/
def follow (folder : Folder) (inside : Bool) : List String → Except FileError Place
  | [] => .ok .directory
  | name :: rest =>
    if name = "." then folder.follow inside rest
    else if name = ".." then folder.follow false rest
    else if rest = [] then .ok (.entry inside name)
    else if longestName < name.utf8ByteSize then .error .nameTooLong
    else if inside && folder.contains name then .error .notDirectory
    else .error .notFound

/-- Where a path leads. -/
def place (folder : Folder) (path : String) : Except FileError Place :=
  if path.contains '\x00' then .error .nulInName
  else if path = "" then .error .notFound
  else if longestPath < path.utf8ByteSize then .error .nameTooLong
  else folder.follow (!path.startsWith "/") (FileName.parts path)

/-- The bytes of a file. A path that ends in a slash leads to no file. -/
def load (folder : Folder) (path : String) : Except FileError Bytes := do
  match ← folder.place path with
  | .directory => throw .isDirectory
  | .entry inside name =>
    if longestName < name.utf8ByteSize then throw .nameTooLong
    match inside, folder.files.lookup name with
    | true, some data => if path.endsWith "/" then throw .notDirectory else pure data
    | _, _ => throw .notFound

/-- The folder with a file saved in it, of which is given what there is to see. -/
def save (folder : Folder) (path : String) (picture : Option Picture) :
    Except FileError Folder := do
  match ← folder.place path with
  | .directory => throw .isDirectory
  | .entry inside name =>
    if path.endsWith "/" then throw .isDirectory
    if longestName < name.utf8ByteSize then throw .nameTooLong
    if inside then
      pure { folder with
        pictures := (name, picture) :: folder.pictures.filter fun saved => saved.1 ≠ name }
    else pure folder

/-- What there is to see in new files, sorted by name. -/
def newPictures (folder : Folder) : List (String × Option Picture) :=
  (folder.pictures.filter fun saved => (folder.files.lookup saved.1).isNone).mergeSort
    fun a b => a.1 ≤ b.1

/-- Saves a file in the folder at hand. -/
def saveHere (path : String) (picture : Option Picture) :
    StateM Folder (Except FileError Unit) := do
  match (← get).save path picture with
  | .ok folder => set folder; pure (.ok ())
  | .error error => pure (.error error)

/-- How to reach the files of a folder. What is saved is what there is to see in the file
afterwards. -/
def access : FileAccess (StateM Folder) where
  load path := do pure ((← get).load path)
  create path := saveHere path none
  save path format picture := saveHere path (format.view? picture)

end Folder

end XcfFlatten
